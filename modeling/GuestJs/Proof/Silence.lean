import GuestJs.Proof.Borrowing
import GuestJs.QuickJs.Operation

/-!
# Which operations can run guest code

An operation is silent in a heap when none of the requests it makes there hands control to the guest.
The conditions below follow each operation from request to request, and, where a request fails with
an exception, on to the requests that read it: its name, its message, its stack, its prototypes and
the names of their constructors. What a single request hands over is up to the engine.
-/

namespace GuestJs.QuickJs

variable {α : Type}

/-- The request hands no control to the guest, and ends as `ok` and `fail` say. -/
abbrev Engine.Silent {E : Engine} (p : Primitive α) (heap : E.Heap) (ok : α → E.Heap → Prop)
    (fail : Fault → E.Heap → Prop) : Prop :=
  Process.Silent (E.primitive p) heap ok fail

section Conditions

variable (E : Engine)

/-! ## Reading an exception -/

/-- A failed read is passed over, unless it was interrupted: then the reading ends. -/
def PassesOver (next : E.Heap → Prop) (fault : Fault) (heap : E.Heap) : Prop :=
  match fault with
  | .exception thrown => E.isUncatchable heap thrown = true ∨ next heap
  | _ => next heap

def SilentText (object : Value) (name : String) (next : E.Heap → Prop) (heap : E.Heap) : Prop :=
  Engine.Silent (.get object (.string name)) heap
    (fun value heap => Engine.Silent (.toText value) heap (fun _ => next) (PassesOver E next))
    (PassesOver E next)

def SilentDescription (thrown : Value) (next : E.Heap → Prop) (heap : E.Heap) : Prop :=
  match thrown with
  | .symbol id =>
      Engine.Silent (.get (.symbol id) (.string "description")) heap (fun _ => next)
        (PassesOver E next)
  | thrown => Engine.Silent (.toText thrown) heap (fun _ => next) (PassesOver E next)

def SilentStack (thrown : Value) (next : E.Heap → Prop) (heap : E.Heap) : Prop :=
  Engine.Silent (.get thrown (.string "stack")) heap (fun _ => next) (PassesOver E next)

def SilentConstructor (prototype : Value) (next : E.Heap → Prop) (heap : E.Heap) : Prop :=
  Engine.Silent (.get prototype (.string "constructor")) heap
    (fun constructor heap =>
      match constructor with
      | .object id =>
          Engine.Silent (.get (.object id) (.string "name")) heap (fun _ => next)
            (PassesOver E next)
      | _ => next heap)
    (PassesOver E next)

def SilentPrototypes : Nat → Value → E.Heap → Prop
  | 0, _, _ => True
  | walk + 1, .object id, heap =>
      Engine.Silent (.getPrototype (.object id)) heap
        (fun prototype heap =>
          match prototype with
          | .object id =>
              SilentConstructor E (.object id) (SilentPrototypes walk (.object id)) heap
          | _ => True)
        (PassesOver E fun _ => True)
  | _ + 1, _, _ => True

/-- Capturing the exception hands no control to the guest. -/
def SilentReading (thrown : Value) (heap : E.Heap) : Prop :=
  E.isUncatchable heap thrown = true ∨
    match E.isError thrown with
    | true =>
        SilentText E thrown "name" (SilentText E thrown "message"
          (SilentStack E thrown (SilentPrototypes E E.walk thrown))) heap
    | false => SilentDescription E thrown (SilentPrototypes E E.walk thrown) heap

def SilentFault (fault : Fault) (heap : E.Heap) : Prop :=
  match fault with
  | .exception thrown => SilentReading E thrown heap
  | _ => True

/-! ## Parts of operations -/

def SilentRequest (p : Primitive α) (heap : E.Heap) : Prop :=
  Engine.Silent p heap (fun _ _ => True) (SilentFault E)

def SilentThrow (kind : GuestErrorKind) (message : String) (heap : E.Heap) : Prop :=
  Engine.Silent (.newError kind message) heap (SilentReading E) (SilentFault E)

def SilentCreate (kind : GuestErrorKind) (message : String) (next : Value → E.Heap → Prop)
    (heap : E.Heap) : Prop :=
  Engine.Silent (.newError kind "") heap
    (fun error heap =>
      Engine.Silent (.defineText error "message" message) heap (fun _ => next error)
        (SilentFault E))
    (SilentFault E)

/-- The function behind the accessor of a view, whatever it is, runs no guest code. -/
def SilentIntrinsic (view : Value) (accessor : Accessor) (next : Value → E.Heap → Prop)
    (heap : E.Heap) : Prop :=
  Engine.Silent (.ownGetter view accessor) heap
    (fun getter heap =>
      match getter with
      | some getter => kindOf E getter = .function →
          Engine.Silent (.callGetter getter view) heap next (SilentFault E)
      | none => SilentThrow E .typeError "intrinsic accessor is missing" heap)
    (SilentFault E)

def SilentMemory (buffer : Value) (next : Nat × Nat → E.Heap → Prop) (heap : E.Heap) : Prop :=
  match kindOf E buffer with
  | .arrayBuffer => Engine.Silent (.arrayBuffer buffer) heap next (SilentFault E)
  | _ => SilentThrow E .typeError "not an ArrayBuffer" heap

def SilentBuffer (view : Value) (next : Value → E.Heap → Prop) (heap : E.Heap) : Prop :=
  match kindOf E view with
  | .typedArray =>
      Engine.Silent (.typedArrayBuffer view) heap (fun slots => next slots.1) (SilentFault E)
  | .dataView => SilentIntrinsic E view .buffer next heap
  | _ => SilentThrow E .typeError "not an ArrayBuffer view" heap

def SilentInteger (view : Value) (accessor : Accessor) (next : Nat → E.Heap → Prop)
    (heap : E.Heap) : Prop :=
  SilentIntrinsic E view accessor
    (fun value heap =>
      match E.toU32 value with
      | some integer => next integer heap
      | none => True)
    heap

def SilentOffset (view : Value) (next : Nat → E.Heap → Prop) (heap : E.Heap) : Prop :=
  match kindOf E view with
  | .typedArray =>
      Engine.Silent (.typedArrayBuffer view) heap (fun slots => next slots.2.1) (SilentFault E)
  | .dataView => SilentInteger E view .byteOffset next heap
  | _ => SilentThrow E .typeError "not an ArrayBuffer view" heap

def SilentLength (value : Value) (next : Nat → E.Heap → Prop) (heap : E.Heap) : Prop :=
  match kindOf E value with
  | .arrayBuffer => SilentMemory E value (fun memory => next memory.2) heap
  | .typedArray =>
      Engine.Silent (.typedArrayBuffer value) heap (fun slots => next slots.2.2) (SilentFault E)
  | .dataView => SilentInteger E value .byteLength next heap
  | _ => SilentThrow E .typeError "not an ArrayBuffer or ArrayBuffer view" heap

def SilentViewRange (view buffer : Value) (next : Window → E.Heap → Prop) (heap : E.Heap) : Prop :=
  match kindOf E buffer with
  | .arrayBuffer =>
      SilentOffset E view
        (fun offset => SilentLength E view fun length => next ⟨buffer, offset, length⟩) heap
  | _ => True

def SilentRange (source : Value) (next : Window → E.Heap → Prop) (heap : E.Heap) : Prop :=
  match kindOf E source with
  | .arrayBuffer => SilentLength E source (fun length => next ⟨source, 0, length⟩) heap
  | .typedArray | .dataView =>
      SilentBuffer E source (fun buffer => SilentViewRange E source buffer next) heap
  | _ => SilentThrow E .typeError "not an ArrayBuffer or ArrayBuffer view" heap

/-- The checks of a grant: the table itself runs nothing. -/
def SilentGrant (kind : BorrowKind) (window : Window) (size : Nat) (heap : E.Heap) : Prop :=
  if size < window.byteOffset + window.byteLength then
    SilentThrow E .rangeError "byte range is outside the ArrayBuffer" heap
  else if kind = .exclusive ∧ E.isImmutable heap window.buffer = true then
    SilentThrow E .typeError "ArrayBuffer is immutable" heap
  else True

def SilentBorrow (source : Value) (kind : BorrowKind) (heap : E.Heap) : Prop :=
  SilentRange E source
    (fun window =>
      SilentMemory E window.buffer fun memory => SilentGrant E kind window memory.2)
    heap

def SilentStr (value : Value) (heap : E.Heap) : Prop :=
  match kindOf E value with
  | .string => SilentRequest E (.toCString value) heap
  | _ => SilentThrow E .typeError "not a string" heap

def SilentElementType (typedArray : Value) (heap : E.Heap) : Prop :=
  match E.typedArrayType typedArray with
  | some _ => True
  | none => SilentThrow E .typeError "not a TypedArray" heap

def SilentJobs (depth : Nat) (heap : E.Heap) : Prop :=
  match depth with
  | 0 => SilentRequest E .executeJob heap
  | _ + 1 => True

/-- The global `Set` is found and constructed, whatever it is, without guest code. -/
def SilentSet (items : List Value) (heap : E.Heap) : Prop :=
  Engine.Silent (.get E.globals (.string "Set")) heap
    (fun set heap =>
      match E.isConstructor set with
      | true =>
          Engine.Silent (.newArray items) heap
            (fun array => SilentRequest E (.construct set [array])) (SilentFault E)
      | false => True)
    (SilentFault E)

def SilentException (error : Error) (context : ContextId) (heap : E.Heap) : Prop :=
  match error with
  | .guest exception =>
      match exception.value.restore context with
      | .ok _ => True
      | .error _ =>
          SilentCreate E .error exception.message
            (fun object heap =>
              Engine.Silent (.defineText object "name" exception.name) heap
                (fun _ heap =>
                  match exception.stack with
                  | some stack => SilentRequest E (.defineText object "stack" stack) heap
                  | none => True)
                (SilentFault E))
            heap
  | error =>
      SilentCreate E error.guestKind error.toString
        (fun object heap =>
          match error.isInterrupted with
          | true => SilentRequest E (.setUncatchable object) heap
          | false => True)
        heap

def SilentExports (module : ModuleId) (next : E.Heap → Prop) :
    List (String × Value) → E.Heap → Prop
  | [], heap => next heap
  | (name, value) :: exports, heap =>
      Engine.Silent (.export module name value) heap (fun _ => SilentExports module next exports)
        (SilentFault E)

def SilentInstantiate (name : String) (exports : List (String × Value)) (heap : E.Heap) : Prop :=
  Engine.Silent (.declareNative name (exports.map Prod.fst)) heap
    (fun module => SilentExports E module
      (fun heap =>
        Engine.Silent (.evaluate module) heap
          (fun evaluated heap =>
            Engine.Silent (.promiseResult evaluated.2) heap
              (fun state heap =>
                match state with
                | .rejected reason => SilentReading E reason heap
                | _ => True)
              (SilentFault E))
          (SilentFault E))
      exports)
    (SilentFault E)

/-! ## The operations that do not ask the table -/

/-- No request the operation makes in the session hands control to the guest. -/
def Operation.Silent (session : Session E) : Operation → Prop
  | newUndefined | newNull | newBoolean _ | newNumber _ | wellKnown _ | kind _ | same _ _
  | asBool _ | asF64 _ | payloadType _ | borrowPayload _ _ | borrowPayloadMut _ _ | install => True
  | newBigint value => SilentRequest E (.newBigint value) session.heap
  | newString value => SilentRequest E (.newString value) session.heap
  | newSymbol description => SilentRequest E (.newSymbol description) session.heap
  | newArray items => SilentRequest E (.newArray items) session.heap
  | newObject => SilentRequest E .newObject session.heap
  | newSet items => SilentSet E items session.heap
  | truthy value => SilentRequest E (.toBoolean value) session.heap
  | asI64 (.bigint n) =>
      Engine.Silent (.toBigint64 (.bigint n)) session.heap
        (fun integer => SilentRequest E (.newBigint integer)) (SilentFault E)
  | asI64 _ => True
  | borrowStr value => SilentStr E value session.heap
  | newArrayBuffer bytes => SilentRequest E (.newArrayBuffer bytes) session.heap
  | newTypedArray element source offset length =>
      SilentRequest E (.newTypedArray element source offset length) session.heap
  | elementType typedArray => SilentElementType E typedArray session.heap
  | buffer view => SilentBuffer E view (fun _ _ => True) session.heap
  | byteOffset view => SilentOffset E view (fun _ _ => True) session.heap
  | byteLength value => SilentLength E value (fun _ _ => True) session.heap
  | borrowBytes source => SilentBorrow E source .shared session.heap
  | borrowBytesMut source => SilentBorrow E source .exclusive session.heap
  | newFunction name length => SilentRequest E (.newFunction name length) session.heap
  | newConstructor name length =>
      Engine.Silent (.newFunction name length) session.heap
        (fun function heap => kindOf E function = .function →
          SilentRequest E (.withConstructor function) heap)
        (SilentFault E)
  | newInstance (.object id) _ => SilentRequest E (.newInstance (.object id)) session.heap
  | newInstance _ _ => True
  | throw value => SilentReading E value session.heap
  | newException error => SilentException E error session.context session.heap
  | newError errorKind message => SilentCreate E errorKind message (fun _ _ => True) session.heap
  | newPromise => SilentRequest E .newPromise session.heap
  | state promise => kindOf E promise = .promise →
      Engine.Silent (.promiseResult promise) session.heap (fun _ _ => True) fun _ _ => True
  | pollJobs => SilentJobs E session.depth session.heap
  | declare name source => SilentRequest E (.declare name source) session.heap
  | synthetic borrowed name exports => (∀ entry ∈ exports, '\x00' ∉ entry.1.toList) →
      match firstDuplicate [] (exports.map Prod.fst) with
      | some duplicate =>
          SilentCreate E .syntaxError s!"duplicate exported name '{duplicate}'"
            (SilentReading E) session.heap
      | none => borrowed = false → SilentInstantiate E name exports session.heap
  | _ => False -- the rest is guarded

end Conditions

/-! ## The conditions are those of the operations -/

section

open Process

variable {E : Engine} {β : Type} {session : Session E}

theorem silent_request {p : Primitive α} {ok : α → Session E → Prop}
    {fail : Fault → Session E → Prop} :
    (request p : Raw E α).Silent session ok fail ↔
      Engine.Silent p session.heap (fun a heap => ok a { session with heap }) fun fault heap =>
        fail fault { session with heap } :=
  silent_zoom

/-- What follows a reading does not depend on what was read. -/
def SilentlyThen (p : Op E α) (condition : (E.Heap → Prop) → E.Heap → Prop) : Prop :=
  ∀ (next : E.Heap → Prop) (session : Session E),
    p.Silent session (fun _ session => next session.heap) (fun _ _ => True) ↔
      condition next session.heap

theorem SilentlyThen.bind {p : Op E α} {condition : (E.Heap → Prop) → E.Heap → Prop}
    (hp : SilentlyThen p condition) {rest : α → Op E β} {ok : β → Session E → Prop}
    {next : E.Heap → Prop}
    (hrest : ∀ a session, (rest a).Silent session ok (fun _ _ => True) ↔ next session.heap) :
    (p >>= rest).Silent session ok (fun _ _ => True) ↔ condition next session.heap := by
  rw [silent_bind, ← hp]
  exact silent_congr hrest fun _ _ => Iff.rfl

theorem silent_settle {read : Raw E α} {ok : Option α → Session E → Prop} :
    (Thrown.settle read).Silent session ok (fun _ _ => True) ↔
      read.Silent session (fun a => ok (some a)) fun fault session =>
        PassesOver E (fun _ => ok none session) fault session.heap := by
  rw [Thrown.settle, silent_handle, silent_map]
  refine silent_congr (fun _ _ => Iff.rfl) fun fault session => ?_
  cases fault with
  | exception thrown =>
      cases hcatch : E.isUncatchable session.heap thrown <;>
        simp [Process.Silent, PassesOver, hcatch]
  | fromJs source target => rfl
  | other message => rfl

theorem silentlyThen_settle {read : Raw E α} {condition : (E.Heap → Prop) → E.Heap → Prop}
    (hread : ∀ (next : E.Heap → Prop) (session : Session E),
      read.Silent session (fun _ session => next session.heap)
          (fun fault session => PassesOver E next fault session.heap) ↔
        condition next session.heap) :
    SilentlyThen (Thrown.settle read) condition := fun next session =>
  silent_settle.trans <| .trans
    (silent_congr (fun _ _ => Iff.rfl) fun fault _ => by cases fault <;> rfl) (hread next session)

theorem silentlyThen_textOf (object : Value) (name : String) :
    SilentlyThen (Thrown.settle do request (.toText (← Thrown.property object name)) :
      Op E (Option String)) (SilentText E object name) :=
  silentlyThen_settle fun _ _ => silent_bind.trans <| silent_request.trans <|
    silent_congr (fun _ _ => silent_request) fun _ _ => Iff.rfl

theorem silentlyThen_text (value : Value) :
    SilentlyThen (Thrown.settle (Thrown.text value) : Op E (Option String))
      (SilentDescription E value) := by
  refine silentlyThen_settle fun next session => ?_
  cases value
  case symbol id =>
    refine silent_bind.trans <| silent_request.trans <|
      silent_congr (fun description _ => ?_) fun _ _ => Iff.rfl
    cases description <;> rfl
  all_goals exact silent_request

theorem silentlyThen_stack (thrown : Value) :
    SilentlyThen (Thrown.settle (Thrown.property thrown "stack") : Op E (Option Value))
      (SilentStack E thrown) :=
  silentlyThen_settle fun _ _ => silent_request

theorem silentlyThen_constructorName (prototype : Value) :
    SilentlyThen (Thrown.settle (Thrown.constructorName prototype) : Op E (Option String))
      (SilentConstructor E prototype) := by
  refine silentlyThen_settle fun next session => ?_
  refine silent_bind.trans <| silent_request.trans <|
    silent_congr (fun found heap => ?_) fun _ _ => Iff.rfl
  rw [silent_bind]
  cases found
  case object id =>
    refine silent_bind.trans <| silent_request.trans <|
      silent_congr (fun name _ => ?_) fun _ _ => Iff.rfl
    cases name <;> rfl
  all_goals rfl

theorem silent_prototypes (walk : Nat) (value : Value) (session : Session E) :
    (Thrown.prototypes walk value : Op E (List String)).Silent session (fun _ _ => True)
        (fun _ _ => True) ↔ SilentPrototypes E walk value session.heap := by
  induction walk generalizing value session with
  | zero => rfl
  | succ walk ih =>
      cases value
      case object id =>
        refine silent_bind.trans <| silent_settle.trans <| silent_request.trans <|
          silent_congr (fun prototype heap => ?_) fun fault _ => by cases fault <;> rfl
        cases prototype
        case object id =>
          exact (silentlyThen_constructorName (.object id)).bind fun _ session =>
            silent_bind.trans (ih (.object id) session)
        all_goals rfl
      all_goals rfl

/-- Reading an exception of the engine's, or any other value, once it is known not to be an
interruption. -/
def readingOf (thrown : Value) (isError : Bool) (context : ContextId) : Op E GuestException := do
  let name ← Thrown.name thrown isError
  let message ← Thrown.message thrown isError
  let stack ← Thrown.stack thrown isError
  let prototypes ← Thrown.prototypes E.walk thrown
  pure ⟨name, message, stack, prototypes, ⟨thrown, context⟩⟩

theorem silent_readingOf (thrown : Value) (isError : Bool) (context : ContextId)
    (session : Session E) :
    (readingOf thrown isError context : Op E GuestException).Silent session (fun _ _ => True)
        (fun _ _ => True) ↔
      match isError with
      | true =>
          SilentText E thrown "name" (SilentText E thrown "message"
            (SilentStack E thrown (SilentPrototypes E E.walk thrown))) session.heap
      | false => SilentDescription E thrown (SilentPrototypes E E.walk thrown) session.heap := by
  have hprototypes : ∀ (build : List String → GuestException) (session : Session E),
      (do pure (build (← Thrown.prototypes E.walk thrown)) : Op E GuestException).Silent session
          (fun _ _ => True) (fun _ _ => True) ↔
        SilentPrototypes E E.walk thrown session.heap := fun _ session =>
    silent_bind.trans (silent_prototypes E.walk thrown session)
  cases isError with
  | true =>
      refine silent_bind.trans <| ((silentlyThen_textOf thrown "name").bind fun name session => ?_)
      refine silent_bind.trans <| ((silentlyThen_textOf thrown "message").bind fun _ session => ?_)
      refine silent_bind.trans <| ((silentlyThen_stack thrown).bind fun stack session => ?_)
      rcases stack with _ | ⟨_ | _ | _ | _ | _ | _ | _ | _⟩ <;> exact hprototypes _ session
  | false =>
      refine silent_bind.trans ?_
      show Process.Silent (do
        let message ← Thrown.message thrown false
        let stack ← Thrown.stack thrown false
        let prototypes ← Thrown.prototypes E.walk thrown
        pure (⟨Thrown.typeOf E thrown, message, stack, prototypes, ⟨thrown, context⟩⟩ :
          GuestException) : Op E GuestException) session _ _ ↔ _
      exact silent_bind.trans <|
        (silentlyThen_text thrown).bind fun _ session => hprototypes _ session

theorem silent_intoError (thrown : Value) (session : Session E) :
    (Thrown.intoError thrown : Op E Error).Silent session (fun _ _ => True) (fun _ _ => True) ↔
      SilentReading E thrown session.heap := by
  rw [Thrown.intoError, silent_handle, silent_map]
  refine silent_bind.trans <| silent_get.trans ?_
  unfold SilentReading
  cases hcatch : E.isUncatchable session.heap thrown with
  | true => exact iff_of_true trivial (Or.inl rfl)
  | false =>
      rw [or_iff_right Bool.false_ne_true]
      exact silent_readingOf thrown (E.isError thrown) session.context session

theorem silent_capture {raw : Raw E α} {ok : α → Session E → Prop} :
    (capture raw).Silent session ok (fun _ _ => True) ↔
      raw.Silent session ok fun fault session => SilentFault E fault session.heap := by
  rw [capture, silent_handle]
  refine silent_congr (fun _ _ => Iff.rfl) fun fault session => ?_
  cases fault with
  | exception thrown => exact silent_bind.trans (silent_intoError thrown session)
  | fromJs source target => rfl
  | other message => rfl

theorem silent_throwNew {kind : GuestErrorKind} {message : String} {ok : α → Session E → Prop} :
    (throwNew kind message : Raw E α).Silent session ok
        (fun fault session => SilentFault E fault session.heap) ↔
      SilentThrow E kind message session.heap :=
  silent_bind.trans silent_request

theorem silent_create {kind : GuestErrorKind} {message : String} (next : Value → E.Heap → Prop) :
    (create kind message : Raw E Value).Silent session
        (fun error session => next error session.heap)
        (fun fault session => SilentFault E fault session.heap) ↔
      SilentCreate E kind message next session.heap :=
  silent_bind.trans <| silent_request.trans <|
    silent_congr (fun _ _ => silent_bind.trans silent_request) fun _ _ => Iff.rfl

theorem silent_asFunction {value : Value} {ok : Value → Session E → Prop} :
    (asFunction value : Raw E Value).Silent session ok
        (fun fault session => SilentFault E fault session.heap) ↔
      (kindOf E value = .function → ok value session) := by
  unfold asFunction
  split
  · next hkind => exact ⟨fun h _ => h, fun h => h hkind⟩
  · next hkind => exact iff_of_true trivial fun h => absurd h hkind

theorem silent_asConstructor {value : Value} {ok : Value → Session E → Prop} :
    (asConstructor value : Raw E Value).Silent session ok
        (fun fault session => SilentFault E fault session.heap) ↔
      match E.isConstructor value with
      | true => ok value session
      | false => True := by
  unfold asConstructor
  cases E.isConstructor value <;> rfl

theorem silent_intrinsic {view : Value} {accessor : Accessor} {next : Value → E.Heap → Prop} :
    (intrinsic view accessor : Raw E Value).Silent session
        (fun value session => next value session.heap)
        (fun fault session => SilentFault E fault session.heap) ↔
      SilentIntrinsic E view accessor next session.heap := by
  refine silent_bind.trans <| silent_request.trans <|
    silent_congr (fun getter heap => ?_) fun _ _ => Iff.rfl
  cases getter with
  | some getter =>
      exact silent_bind.trans <| silent_asFunction.trans <|
        imp_congr_right fun _ => silent_request
  | none => exact silent_throwNew

theorem silent_integer {view : Value} {accessor : Accessor} {next : Nat → E.Heap → Prop} :
    (do asU32 (← intrinsic view accessor) : Raw E Nat).Silent session
        (fun integer session => next integer session.heap)
        (fun fault session => SilentFault E fault session.heap) ↔
      SilentInteger E view accessor next session.heap := by
  refine silent_bind.trans <| .trans (silent_congr (fun value session => ?_) fun _ _ => Iff.rfl)
    silent_intrinsic
  unfold asU32
  cases E.toU32 value <;> rfl

theorem silent_memory {value : Value} {next : Nat × Nat → E.Heap → Prop} :
    (arrayBuffer value : Raw E (Nat × Nat)).Silent session
        (fun memory session => next memory session.heap)
        (fun fault session => SilentFault E fault session.heap) ↔
      SilentMemory E value next session.heap := by
  unfold arrayBuffer SilentMemory
  cases kindOf E value
  case arrayBuffer => exact silent_request
  all_goals exact silent_throwNew

theorem silent_buffer {view : Value} (next : Value → E.Heap → Prop) :
    (buffer view : Op E Value).Silent session (fun value session => next value session.heap)
        (fun _ _ => True) ↔ SilentBuffer E view next session.heap := by
  unfold buffer SilentBuffer
  cases kindOf E view
  case typedArray => exact silent_capture.trans (silent_map.trans silent_request)
  case dataView => exact silent_capture.trans silent_intrinsic
  all_goals exact silent_capture.trans silent_throwNew

theorem silent_byteOffset {view : Value} (next : Nat → E.Heap → Prop) :
    (byteOffset view : Op E Nat).Silent session (fun offset session => next offset session.heap)
        (fun _ _ => True) ↔ SilentOffset E view next session.heap := by
  unfold byteOffset SilentOffset
  cases kindOf E view
  case typedArray => exact silent_capture.trans (silent_map.trans silent_request)
  case dataView => exact silent_capture.trans silent_integer
  all_goals exact silent_capture.trans silent_throwNew

theorem silent_byteLength {value : Value} (next : Nat → E.Heap → Prop) :
    (byteLength value : Op E Nat).Silent session (fun length session => next length session.heap)
        (fun _ _ => True) ↔ SilentLength E value next session.heap := by
  unfold byteLength SilentLength
  cases kindOf E value
  case arrayBuffer => exact silent_capture.trans (silent_map.trans silent_memory)
  case typedArray => exact silent_capture.trans (silent_map.trans silent_request)
  case dataView => exact silent_capture.trans silent_integer
  all_goals exact silent_capture.trans silent_throwNew

theorem silent_viewRange {view source : Value} {next : Window → E.Heap → Prop} :
    (viewRange view source : Op E Window).Silent session
        (fun window session => next window session.heap) (fun _ _ => True) ↔
      SilentViewRange E view source next session.heap := by
  unfold viewRange SilentViewRange
  cases kindOf E source
  case arrayBuffer =>
    refine silent_bind.trans <| .trans (silent_congr (fun offset session => ?_) fun _ _ => Iff.rfl)
      (silent_byteOffset _)
    exact silent_bind.trans (silent_byteLength _)
  all_goals rfl

theorem silent_bufferRange {source : Value} {next : Window → E.Heap → Prop} :
    (bufferRange source : Op E Window).Silent session
        (fun window session => next window session.heap) (fun _ _ => True) ↔
      SilentRange E source next session.heap := by
  unfold bufferRange SilentRange
  have hview : (do viewRange source (← buffer source) : Op E Window).Silent session
      (fun window session => next window session.heap) (fun _ _ => True) ↔
        SilentBuffer E source (fun buffer => SilentViewRange E source buffer next) session.heap :=
    silent_bind.trans <| .trans (silent_congr (fun _ _ => silent_viewRange) fun _ _ => Iff.rfl)
      (silent_buffer _)
  cases kindOf E source
  case arrayBuffer => exact silent_bind.trans (silent_byteLength _)
  case typedArray => exact hview
  case dataView => exact hview
  all_goals exact silent_capture.trans silent_throwNew

theorem silent_grant {kind : BorrowKind} {window : Window} {data size : Nat} :
    (Bytes.grant kind window data size : Op E Bytes).Silent session (fun _ _ => True)
        (fun _ _ => True) ↔ SilentGrant E kind window size session.heap := by
  refine silent_bind.trans <| silent_get.trans ?_
  unfold SilentGrant
  by_cases hrange : size < window.byteOffset + window.byteLength
  · simp only [if_pos hrange]
    exact silent_capture.trans silent_throwNew
  by_cases himmutable : kind = .exclusive ∧ E.isImmutable session.heap window.buffer = true
  · simp only [if_neg hrange, if_pos himmutable]
    exact silent_capture.trans silent_throwNew
  simp only [if_neg hrange, if_neg himmutable]
  by_cases hempty : window.byteLength = 0
  · simp only [if_pos hempty]
    rfl
  · simp only [if_neg hempty]
    cases session.loans.lend ⟨"ArrayBuffer", data⟩ kind <;> rfl

theorem silent_new {source : Value} {kind : BorrowKind} :
    (Bytes.new source kind : Op E Bytes).Silent session (fun _ _ => True) (fun _ _ => True) ↔
      SilentBorrow E source kind session.heap := by
  refine silent_bind.trans <| .trans (silent_congr (fun window session => ?_) fun _ _ => Iff.rfl)
    silent_bufferRange
  refine silent_bind.trans <| silent_capture.trans <|
    .trans (silent_congr (fun memory session => ?_) fun _ _ => Iff.rfl) silent_memory
  exact silent_grant

theorem silent_single {p : Primitive α} :
    (capture (request p) : Op E α).Silent session (fun _ _ => True) (fun _ _ => True) ↔
      SilentRequest E p session.heap :=
  silent_capture.trans silent_request

theorem silent_exception {error : Error} :
    (Raise.exception error : Raw E Value).Silent session (fun _ _ => True)
        (fun fault session => SilentFault E fault session.heap) ↔
      SilentException E error session.context session.heap := by
  have hown : ∀ error : Error, (do
      let object ← create error.guestKind error.toString
      match error.isInterrupted with
      | true => request (.setUncatchable object)
      | false => pure ()
      pure object : Raw E Value).Silent session (fun _ _ => True)
        (fun fault session => SilentFault E fault session.heap) ↔
      SilentCreate E error.guestKind error.toString
        (fun object heap =>
          match error.isInterrupted with
          | true => SilentRequest E (.setUncatchable object) heap
          | false => True)
        session.heap := by
    intro error
    refine silent_bind.trans <| .trans (silent_congr (fun object session => ?_) fun _ _ => Iff.rfl)
      (silent_create _)
    cases error.isInterrupted with
    | true => exact silent_bind.trans silent_request
    | false => rfl
  refine silent_bind.trans <| silent_get.trans ?_
  unfold SilentException
  cases error
  case guest exception =>
    cases hrestore : exception.value.restore session.context with
    | ok value =>
        simp only [hrestore]
        rfl
    | error _ =>
        simp only [hrestore]
        refine silent_bind.trans <| .trans
          (silent_congr (fun object session => ?_) fun _ _ => Iff.rfl) (silent_create _)
        refine silent_bind.trans <| silent_request.trans <|
          silent_congr (fun _ heap => ?_) fun _ _ => Iff.rfl
        cases exception.stack with
        | some stack => exact silent_bind.trans silent_request
        | none => rfl
  all_goals exact hown _

theorem silent_cString {name : String} {ok : String → Session E → Prop} :
    (cString name : Raw E String).Silent session ok
        (fun fault session => SilentFault E fault session.heap) ↔
      ('\x00' ∉ name.toList → ok name session) := by
  unfold cString
  cases hnul : name.toList.idxOf? '\x00' with
  | none => exact ⟨fun h _ => h, fun h => h (List.idxOf?_eq_none_iff.mp hnul)⟩
  | some position =>
      refine iff_of_true trivial fun h => ?_
      rw [List.idxOf?_eq_none_iff.mpr h] at hnul
      cases hnul

theorem silent_cStrings {exports : List (String × Value)} {ok : PUnit → Session E → Prop} :
    (exports.forM fun (name, _) => discard (cString name) : Raw E PUnit).Silent session ok
        (fun fault session => SilentFault E fault session.heap) ↔
      ((∀ entry ∈ exports, '\x00' ∉ entry.1.toList) → ok ⟨⟩ session) := by
  induction exports with
  | nil => simp [silent_pure]
  | cons entry exports ih =>
      refine silent_bind.trans <| silent_map.trans <| silent_cString.trans ?_
      rw [ih, List.forall_mem_cons, and_imp]

theorem silent_exports {module : ModuleId} {exports : List (String × Value)}
    {next : E.Heap → Prop} :
    (exports.forM fun (name, value) => request (.export module name value) : Raw E PUnit).Silent
        session (fun _ session => next session.heap)
        (fun fault session => SilentFault E fault session.heap) ↔
      SilentExports E module next exports session.heap := by
  induction exports generalizing session with
  | nil => rfl
  | cons entry exports ih =>
      exact silent_bind.trans <| silent_request.trans <|
        silent_congr (fun _ _ => ih) fun _ _ => Iff.rfl

theorem silent_instantiate {name : String} {exports : List (String × Value)}
    (hpending : session.pendingExports = some exports) :
    (BackendModules.instantiate (.whole exports) name : Op E ModuleId).Silent session
        (fun _ _ => True) (fun _ _ => True) ↔ SilentInstantiate E name exports session.heap := by
  refine silent_bind.trans <| silent_capture.trans <| silent_request.trans <|
    silent_congr (fun module heap => ?_) fun _ _ => Iff.rfl
  refine silent_capture.trans <| silent_bind.trans <| silent_bind.trans <| silent_bind.trans <|
    silent_get.trans ?_
  simp only [hpending]
  refine silent_bind.trans <| silent_set.trans <|
    .trans (silent_congr (fun _ session => ?_) fun _ _ => Iff.rfl) silent_exports
  refine silent_request.trans <| silent_congr (fun evaluated heap => ?_) fun _ _ => Iff.rfl
  refine silent_bind.trans <| silent_request.trans <|
    silent_congr (fun state heap => ?_) fun _ _ => Iff.rfl
  cases state <;> rfl

theorem silent_synthetic {borrowed : Bool} {name : String} {exports : List (String × Value)} :
    (BackendModules.synthetic (.whole exports) borrowed name exports : Op E ModuleId).Silent session
        (fun _ _ => True) (fun _ _ => True) ↔
      Operation.Silent E session (.synthetic borrowed name exports) := by
  refine silent_bind.trans <| silent_capture.trans <| silent_cStrings.trans <|
    imp_congr_right fun _ => ?_
  cases firstDuplicate [] (exports.map Prod.fst) with
  | some duplicate =>
      exact silent_capture.trans <| silent_bind.trans
        (silent_create (SilentReading E))
  | none =>
      cases borrowed with
      | true => exact iff_of_true trivial nofun
      | false =>
          refine silent_bind.trans <| silent_modify.trans <| silent_handle.trans ?_
          rw [forall_prop_of_true rfl]
          exact .trans (silent_congr (fun _ _ => Iff.rfl) fun _ _ => Iff.rfl) (silent_instantiate rfl)

theorem silent_entered {operation : Op E α} :
    (entered operation).Silent session (fun _ _ => True) (fun _ _ => True) ↔
      operation.Silent { session with depth := session.depth + 1 } (fun _ _ => True)
        fun _ _ => True := by
  unfold entered Process.Silent
  dsimp only
  rcases operation { session with depth := session.depth + 1 } with
    ⟨_ | _, _⟩ | ⟨_, _, _⟩ <;> rfl

theorem silent_discard {p : Op E α} :
    (discard p).Silent session (fun _ _ => True) (fun _ _ => True) ↔
      p.Silent session (fun _ _ => True) fun _ _ => True :=
  silent_map

theorem silent_newSet {items : List Value} :
    (newSet items : Op E Value).Silent session (fun _ _ => True) (fun _ _ => True) ↔
      SilentSet E items session.heap := by
  refine silent_capture.trans <| silent_bind.trans <| silent_request.trans <|
    silent_congr (fun set heap => ?_) fun _ _ => Iff.rfl
  refine silent_bind.trans <| silent_asConstructor.trans ?_
  cases E.isConstructor set with
  | true =>
      exact silent_bind.trans <| silent_request.trans <|
        silent_congr (fun _ _ => silent_request) fun _ _ => Iff.rfl
  | false => rfl

theorem silent_asI64 {value : Value} :
    (asI64 value : Op E Int).Silent session (fun _ _ => True) (fun _ _ => True) ↔
      Operation.Silent E session (.asI64 value) := by
  cases value
  case bigint n =>
    refine silent_bind.trans <| silent_capture.trans <| silent_request.trans <|
      silent_congr (fun integer heap => ?_) fun _ _ => Iff.rfl
    refine silent_bind.trans <| .trans (silent_congr (fun made _ => ?_) fun _ _ => Iff.rfl)
      silent_single
    cases same (.bigint n) made <;> rfl
  case number number =>
    refine iff_of_true ?_ trivial
    cases number with
    | finite q =>
        show Process.Silent (if _ then _ else _) session _ _
        split <;> trivial
    | negativeZero => trivial
    | infinity negative => trivial
    | nan => trivial
  all_goals rfl

theorem silent_borrowStr {value : Value} :
    (borrowStr value : Op E String).Silent session (fun _ _ => True) (fun _ _ => True) ↔
      SilentStr E value session.heap := by
  unfold borrowStr SilentStr
  cases kindOf E value
  case string =>
    refine silent_bind.trans <| .trans (silent_congr (fun text _ => ?_) fun _ _ => Iff.rfl)
      silent_single
    cases text <;> rfl
  all_goals exact silent_capture.trans silent_throwNew

theorem silent_elementType {typedArray : Value} :
    (elementType typedArray : Op E ElementType).Silent session (fun _ _ => True)
        (fun _ _ => True) ↔ SilentElementType E typedArray session.heap := by
  unfold elementType SilentElementType
  cases E.typedArrayType typedArray with
  | some element => rfl
  | none => exact silent_capture.trans silent_throwNew

theorem silent_newConstructor {name : String} {length : Nat} :
    (BackendClasses.newConstructor name length : Op E Value).Silent session (fun _ _ => True)
        (fun _ _ => True) ↔ Operation.Silent E session (.newConstructor name length) := by
  refine silent_bind.trans <| silent_capture.trans <| silent_request.trans <|
    silent_congr (fun function heap => ?_) fun _ _ => Iff.rfl
  refine silent_capture.trans <| silent_bind.trans <| silent_asFunction.trans <|
    imp_congr_right fun _ => silent_request

theorem silent_newInstance {prototype : Value} {type : PayloadType} :
    (BackendClasses.newInstance prototype type : Op E Value).Silent session (fun _ _ => True)
        (fun _ _ => True) ↔ Operation.Silent E session (.newInstance prototype type) := by
  have hmade : (capture do request (.newInstance (← asObject prototype)) : Op E Value).Silent
      session (fun _ _ => True) (fun _ _ => True) ↔
        Operation.Silent E session (.newInstance prototype type) := by
    refine silent_capture.trans <| silent_bind.trans ?_
    cases prototype
    case object id => exact silent_request
    all_goals rfl
  refine silent_bind.trans <| .trans (silent_congr (fun created _ => ?_) fun _ _ => Iff.rfl) hmade
  cases created <;> exact iff_of_true trivial trivial

theorem silent_borrowPayload {kind : BorrowKind} {value : Value} {type : PayloadType} :
    (BackendClasses.borrow kind value type : Op E Unit).Silent session (fun _ _ => True)
      fun _ _ => True := by
  refine silent_bind.mpr ?_
  cases htyped : PayloadCell.typed session value type with
  | error error => simp only [Process.Silent, check_apply, htyped]
  | ok found =>
      simp only [Process.Silent, check_apply, htyped]
      cases found.2.lend kind <;> trivial

theorem silent_asPromise {value : Value} {ok : Value → Session E → Prop} :
    (asPromise value : Raw E Value).Silent session ok
        (fun fault session => SilentFault E fault session.heap) ↔
      (kindOf E value = .promise → ok value session) := by
  unfold asPromise
  split
  · next hkind => exact ⟨fun h _ => h, fun h => h hkind⟩
  · next hkind => exact iff_of_true trivial fun h => absurd h hkind

theorem silent_state {promise : Value} :
    (BackendPromises.state promise : Op E PromiseState).Silent session (fun _ _ => True)
        (fun _ _ => True) ↔ Operation.Silent E session (.state promise) :=
  silent_bind.trans <| silent_capture.trans <| silent_asPromise.trans <| imp_congr_right fun _ =>
    silent_handle.trans silent_request

theorem silent_pollJobs :
    (BackendPromises.pollJobs : Op E Bool).Silent session (fun _ _ => True) (fun _ _ => True) ↔
      SilentJobs E session.depth session.heap := by
  refine silent_bind.trans <| silent_get.trans ?_
  unfold SilentJobs
  cases session.depth with
  | zero => exact silent_entered.trans silent_single
  | succ depth => rfl

/-- An operation that does not ask the table runs guest code unless it is silent. -/
theorem Operation.finished_iff {operation : Operation} (hguarded : operation.isGuarded = false) :
    (operation.run E session).Finished ↔ operation.Silent E session := by
  rw [finished_iff_silent]
  cases operation
  case newSet => exact silent_discard.trans silent_newSet
  case asI64 => exact silent_discard.trans silent_asI64
  case borrowStr => exact silent_discard.trans silent_borrowStr
  case asBool value => cases value <;> rfl
  case asF64 value => cases value <;> rfl
  case elementType => exact silent_discard.trans silent_elementType
  case buffer => exact silent_discard.trans (silent_buffer fun _ _ => True)
  case byteOffset => exact silent_discard.trans (silent_byteOffset fun _ _ => True)
  case byteLength => exact silent_discard.trans (silent_byteLength fun _ _ => True)
  case borrowBytes => exact silent_discard.trans silent_new
  case borrowBytesMut => exact silent_discard.trans silent_new
  case newConstructor => exact silent_discard.trans silent_newConstructor
  case newInstance => exact silent_discard.trans silent_newInstance
  case payloadType value => cases value <;> rfl
  case borrowPayload => exact iff_of_true silent_borrowPayload trivial
  case borrowPayloadMut => exact iff_of_true silent_borrowPayload trivial
  case throw => exact silent_discard.trans (silent_intoError _ _)
  case newException => exact silent_discard.trans (silent_capture.trans silent_exception)
  case newError =>
    exact silent_discard.trans (silent_capture.trans (silent_create fun _ _ => True))
  case state => exact silent_discard.trans silent_state
  case pollJobs => exact silent_discard.trans silent_pollJobs
  case synthetic => exact silent_discard.trans silent_synthetic
  case install =>
    refine iff_of_true ?_ trivial
    refine silent_bind.mpr (silent_get.mpr ?_)
    cases session.depth <;> trivial
  all_goals
    first
      | exact silent_discard.trans silent_single
      | exact iff_of_true trivial trivial
      | exact nomatch hguarded

end

end GuestJs.QuickJs
