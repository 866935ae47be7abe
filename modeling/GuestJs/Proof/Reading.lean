import GuestJs.Proof.Borrowing
import GuestJs.Proof.LoanTable

/-!
# What reading does to a session

Looking at a view, capturing an exception and turning a failure into an error make requests of the
engine that only read. Whatever relation of sessions such a request respects is respected by all of
them, between the calls of guest functions they make as well as after the last; and a borrow only
reads until it is granted.
-/

namespace GuestJs.QuickJs

variable {E : Engine} {α : Type}

def Primitive.definesText : Primitive α → Bool
  | .defineText _ _ _ => true
  | _ => false

/-- A relation that steps compose in and every request of a read respects. Reading does not write the
texts of an error. -/
structure Reading (R : Session E → Session E → Prop) : Prop where
  refl : ∀ s, R s s
  trans : ∀ s t u, R s t → R t u → R s u
  request : ∀ {α : Type} {p : Primitive α}, p.isRead = true → p.definesText = false →
    (request p : Raw E α).Moves R fun _ _ => True

/-- A relation of heaps that reads respect, on sessions that have the same loans. -/
theorem Reading.of_heap {K : E.Heap → E.Heap → Prop} {R : Session E → Session E → Prop}
    (hrefl : ∀ h, K h h) (htrans : ∀ h h' h'', K h h' → K h' h'' → K h h'')
    (hread : ∀ {α : Type} (p : Primitive α) h, p.isRead = true →
      (E.primitive p h).Guarantees K (fun h _ h' => K h h') h)
    (hR : ∀ s s', R s s' ↔ s'.loans = s.loans ∧ K s.heap s'.heap) : Reading R where
  refl := fun s => (hR s s).mpr ⟨rfl, hrefl s.heap⟩
  trans := fun s t u hst htu => by
    rw [hR] at hst htu ⊢
    exact ⟨htu.1.trans hst.1, htrans _ _ _ hst.2 htu.2⟩
  request := fun {α} {p} hp _ => by
    have hheap : Process.Moves K (E.primitive p) fun _ _ => True := fun heap =>
      (hread p heap hp).mono fun _ _ _ hK => ⟨hK, fun _ _ => trivial⟩
    exact hheap.zoom (fun s _ hK => (hR s _).mpr ⟨rfl, hK⟩) fun _ _ _ _ => trivial

namespace Reading

variable {R : Session E → Session E → Prop} (hR : Reading R)

include hR

theorem throw {ε : Type} {e : ε} {Q : α → Session E → Prop} :
    (throw e : Process (Session E) GuestCall Answer ε α).Moves R Q :=
  Process.moves_throw hR.refl

theorem pure {ε : Type} (a : α) :
    (pure a : Process (Session E) GuestCall Answer ε α).Moves R fun _ _ => True :=
  Process.moves_pure hR.refl fun _ => trivial

theorem bind {ε β : Type} {p : Process (Session E) GuestCall Answer ε α}
    {next : α → Process (Session E) GuestCall Answer ε β} {Q : β → Session E → Prop}
    (hp : p.Moves R fun _ _ => True) (hnext : ∀ a, (next a).Moves R Q) : (p >>= next).Moves R Q :=
  Process.Moves.bind hR.trans hp hnext

omit hR in
theorem map {ε β : Type} {p : Process (Session E) GuestCall Answer ε α} {f : α → β}
    (hp : p.Moves R fun _ _ => True) : (f <$> p).Moves R fun _ _ => True :=
  Process.Moves.map hp fun _ _ _ => trivial

theorem mistyped {value : Value} {expected : String} {Q : α → Session E → Prop} :
    (mistyped value expected : Raw E α).Moves R Q := hR.throw

theorem throwNew {kind : GuestErrorKind} {message : String} {Q : α → Session E → Prop} :
    (throwNew kind message : Raw E α).Moves R Q :=
  hR.bind (hR.request rfl rfl) fun _ => hR.throw

/-! ### Captures -/

theorem settle {read : Raw E α} (h : read.Moves R fun _ _ => True) :
    (Thrown.settle read).Moves R fun _ _ => True :=
  Process.Moves.handle hR.trans (map h) fun _ => Process.moves_check hR.refl fun _ _ _ => trivial

theorem property {object : Value} {name : String} :
    (Thrown.property object name : Raw E Value).Moves R fun _ _ => True := hR.request rfl rfl

theorem textOf {object : Value} {name : String} :
    (do QuickJs.request (.toText (← Thrown.property object name)) : Raw E String).Moves R
      fun _ _ => True :=
  hR.bind hR.property fun _ => hR.request rfl rfl

theorem name (thrown : Value) (isError : Bool) :
    (Thrown.name thrown isError : Op E String).Moves R fun _ _ => True := by
  cases isError with
  | true => exact hR.bind (hR.settle hR.textOf) fun _ => hR.pure _
  | false => exact hR.bind (hR.pure none) fun _ => hR.pure _

theorem text (value : Value) : (Thrown.text value : Raw E String).Moves R fun _ _ => True := by
  cases value
  case symbol id =>
    refine hR.bind hR.property fun description => ?_
    cases description
    case undefined => exact hR.pure _
    case null => exact hR.pure _
    case string => exact hR.pure _
    all_goals exact hR.mistyped
  all_goals exact hR.request rfl rfl

theorem message (thrown : Value) (isError : Bool) :
    (Thrown.message thrown isError : Op E String).Moves R fun _ _ => True := by
  cases isError with
  | true => exact hR.bind (hR.settle hR.textOf) fun _ => hR.pure _
  | false => exact hR.bind (hR.settle (hR.text thrown)) fun _ => hR.pure _

theorem stack (thrown : Value) (isError : Bool) :
    (Thrown.stack thrown isError : Op E (Option String)).Moves R fun _ _ => True := by
  cases isError with
  | true =>
      refine hR.bind (hR.settle hR.property) fun found => ?_
      split
      · exact hR.pure _
      · exact hR.pure _
  | false => exact hR.pure none

theorem asObject (value : Value) :
    (asObject value : Raw E Value).Moves R fun _ _ => True := by
  cases value
  case object id => exact hR.pure _
  all_goals exact hR.mistyped

theorem constructorName (prototype : Value) :
    (Thrown.constructorName prototype : Raw E String).Moves R fun _ _ => True := by
  refine hR.bind hR.property fun found => hR.bind (hR.asObject found) fun constructor =>
    hR.bind hR.property fun name => ?_
  cases name
  case string name => exact hR.pure name
  all_goals exact hR.mistyped

theorem prototypes (walk : Nat) (value : Value) :
    (Thrown.prototypes walk value : Op E (List String)).Moves R fun _ _ => True := by
  induction walk generalizing value with
  | zero => exact hR.pure []
  | succ walk ih =>
      cases value
      case object id =>
        refine hR.bind (hR.settle (hR.request rfl rfl)) fun found => ?_
        split
        · exact hR.bind (hR.settle (hR.constructorName _)) fun _ =>
            hR.bind (ih _) fun _ => hR.pure _
        · exact hR.pure []
      all_goals exact hR.pure []

theorem exception (thrown : Value) :
    (Thrown.exception thrown : Op E GuestException).Moves R fun _ _ => True := by
  have hget : (get : Op E (Session E)).Moves R fun _ _ => True := fun s =>
    ⟨hR.refl s, fun _ _ => trivial⟩
  refine hR.bind hget fun session => ?_
  split
  · exact hR.throw
  · exact hR.bind (hR.name _ _) fun _ => hR.bind (hR.message _ _) fun _ =>
      hR.bind (hR.stack _ _) fun _ => hR.bind (hR.prototypes _ _) fun _ => hR.pure _

theorem intoError (thrown : Value) :
    (Thrown.intoError thrown : Op E Error).Moves R fun _ _ => True :=
  Process.Moves.handle hR.trans (map (hR.exception thrown)) fun error => hR.pure error

theorem capture {raw : Raw E α} {Q : α → Session E → Prop} (h : raw.Moves R Q) :
    (capture raw).Moves R Q := by
  refine Process.Moves.handle hR.trans h fun fault => ?_
  cases fault with
  | exception thrown => exact hR.bind (hR.intoError thrown) fun _ => hR.throw
  | fromJs source target => exact hR.throw
  | other message => exact hR.throw

/-! ### Views -/

theorem asFunction (value : Value) :
    (asFunction value : Raw E Value).Moves R fun _ _ => True := by
  unfold QuickJs.asFunction
  split
  · exact hR.pure value
  · exact hR.mistyped

theorem asU32 (value : Value) : (asU32 value : Raw E Nat).Moves R fun _ _ => True := by
  unfold QuickJs.asU32
  split
  · exact hR.pure _
  · exact hR.mistyped

theorem intrinsic (view : Value) (accessor : Accessor) :
    (intrinsic view accessor : Raw E Value).Moves R fun _ _ => True := by
  refine hR.bind (hR.request rfl rfl) fun getter => ?_
  cases getter with
  | some getter => exact hR.bind (hR.asFunction getter) fun _ => hR.request rfl rfl
  | none => exact hR.throwNew

theorem arrayBuffer (buffer : Value) :
    (arrayBuffer buffer : Raw E (Nat × Nat)).Moves R fun memory session =>
      E.block session.heap buffer = some ⟨memory.1, memory.2⟩ := by
  by_cases hkind : kindOf E buffer = .arrayBuffer
  · intro session
    obtain ⟨result, heap, hdone, hrequest⟩ :=
      exists_of_inert (p := .arrayBuffer buffer) rfl session
    have hreads := hR.request (p := .arrayBuffer buffer) rfl rfl session
    rw [arrayBuffer_of_kind hkind, hrequest] at *
    refine ⟨hreads.1, ?_⟩
    rintro ⟨address, size⟩ rfl
    exact E.arrayBuffer_block buffer session.heap address size heap hdone
  · rw [arrayBuffer_of_kind_ne hkind]
    exact hR.throwNew

theorem buffer (view : Value) : (buffer view : Op E Value).Moves R fun _ _ => True := by
  unfold QuickJs.buffer
  split
  · exact hR.capture (map (hR.request rfl rfl))
  · exact hR.capture (hR.intrinsic view .buffer)
  · exact hR.capture hR.throwNew

theorem byteOffset (view : Value) : (byteOffset view : Op E Nat).Moves R fun _ _ => True := by
  unfold QuickJs.byteOffset
  split
  · exact hR.capture (map (hR.request rfl rfl))
  · exact hR.capture (hR.bind (hR.intrinsic view .byteOffset) hR.asU32)
  · exact hR.capture hR.throwNew

theorem byteLength (value : Value) : (byteLength value : Op E Nat).Moves R fun _ _ => True := by
  unfold QuickJs.byteLength
  split
  · exact hR.capture (Process.Moves.map (hR.arrayBuffer value) fun _ _ _ => trivial)
  · exact hR.capture (map (hR.request rfl rfl))
  · exact hR.capture (hR.bind (hR.intrinsic value .byteLength) hR.asU32)
  · exact hR.capture hR.throwNew

theorem viewRange (view buffer : Value) :
    (viewRange view buffer : Op E Window).Moves R fun _ _ => True := by
  unfold QuickJs.viewRange
  split
  · exact hR.bind (hR.byteOffset view) fun _ => hR.bind (hR.byteLength view) fun _ => hR.pure _
  · exact hR.throw

theorem bufferRange (source : Value) :
    (bufferRange source : Op E Window).Moves R fun _ _ => True := by
  unfold QuickJs.bufferRange
  split
  · exact hR.bind (hR.byteLength source) fun _ => hR.pure _
  · exact hR.bind (hR.buffer source) fun buffer => hR.viewRange source buffer
  · exact hR.bind (hR.buffer source) fun buffer => hR.viewRange source buffer
  · exact hR.capture hR.throwNew

end Reading

/-! ### Borrows -/

theorem Granted.session_eq {session session' : Session E} {kind : BorrowKind} {window : Window}
    {data size : Nat} {bytes : Bytes} (h : Granted session kind window data size bytes session') :
    { session' with loans := bytes.drop session'.loans } = session := by
  cases h with
  | empty => rfl
  | loan _ _ _ hlend =>
      have hloans : Bytes.drop ⟨some ⟨"ArrayBuffer", data⟩, kind, data + window.byteOffset, window⟩ _ =
        session.loans := Loans.release_of_lend hlend
      simp only [hloans]

/-- What becomes of a slice of bytes that is to be one of elements. -/
def checked (element : Element) (bytes : Bytes) : Op E Bytes :=
  match element.check bytes.address bytes.window.byteLength with
  | .ok () => pure bytes
  | .error error => do
      modify fun session => { session with loans := bytes.drop session.loans }
      throw error

theorem borrowElements_eq (element : Element) (kind : BorrowKind) (value : Value) :
    (borrowElements element kind value : Op E Bytes) =
        (do checked element (← Bytes.new value kind)) ∨
      ∃ error, (borrowElements element kind value : Op E Bytes) = throw error := by
  unfold borrowElements
  split
  · exact Or.inl rfl
  · exact Or.inl rfl
  · exact Or.inl rfl
  · exact Or.inr ⟨_, rfl⟩

/-- A borrow that ends has read, and then been granted what it hands out. -/
def Lends (R : Session E → Session E → Prop) (s : Session E) (result : Except Error Bytes)
    (s' : Session E) : Prop :=
  match result with
  | .ok bytes => ∃ t kind window data size, R s t ∧
      E.block t.heap window.buffer = some ⟨data, size⟩ ∧ Granted t kind window data size bytes s'
  | .error _ => R s s'

namespace Reading

variable {R : Session E → Session E → Prop} (hR : Reading R)

include hR

theorem lends_after {s t u : Session E} {result : Except Error Bytes} (hst : R s t)
    (h : Lends R t result u) : Lends R s result u := by
  cases result with
  | ok bytes =>
      obtain ⟨v, kind, window, data, size, hread, hgranted⟩ := h
      exact ⟨v, kind, window, data, size, hR.trans s t v hst hread, hgranted⟩
  | error error => exact hR.trans s t u hst h

theorem lends_bind {p : Op E α} {next : α → Op E Bytes} {Q : α → Session E → Prop}
    (hp : p.Moves R Q) (hnext : ∀ a s, Q a s → (next a s).Guarantees R (Lends R) s)
    (s : Session E) : ((p >>= next) s).Guarantees R (Lends R) s := by
  rw [Process.bind_apply]
  refine (hp s).andThen ?_
  rintro s (error | a) s' ⟨hmove, hresult⟩
  · exact hmove
  · exact (hnext a s' (hresult a rfl)).after (fun u hu => hR.trans s s' u hmove hu)
      fun _ u hu => hR.lends_after hmove hu

omit hR in
theorem lends_of_failing {op : Op E Bytes} (h : op.Moves R fun _ _ => False) (s : Session E) :
    (op s).Guarantees R (Lends R) s := (h s).mono fun _ result _ hend =>
  match result with
  | .ok bytes => (hend.2 bytes rfl).elim
  | .error _ => hend.1

theorem grant {kind : BorrowKind} {window : Window} {data size : Nat} {s : Session E}
    (hblock : E.block s.heap window.buffer = some ⟨data, size⟩) :
    (Bytes.grant kind window data size s).Guarantees R (Lends R) s := by
  rcases grant_cases kind window data size s with
    ⟨bytes, s', hdone, hgranted⟩ | ⟨errorKind, message, hthrow⟩ | ⟨error, hdone⟩
  · rw [hdone]
    exact ⟨s, kind, window, data, size, hR.refl s, hblock, hgranted⟩
  · rw [hthrow]
    exact lends_of_failing (hR.capture hR.throwNew) s
  · rw [hdone]
    exact hR.refl s

theorem new (source : Value) (kind : BorrowKind) (s : Session E) :
    (Bytes.new source kind s).Guarantees R (Lends R) s :=
  hR.lends_bind (hR.bufferRange source) (fun window s _ =>
    hR.lends_bind (hR.capture (hR.arrayBuffer window.buffer)) (fun _ _ hblock => hR.grant hblock) s)
    s

theorem borrowElements (element : Element) (kind : BorrowKind) (value : Value) (s : Session E) :
    (borrowElements element kind value s).Guarantees R (Lends R) s := by
  rcases borrowElements_eq element kind value with hborrow | ⟨error, hthrow⟩
  · rw [hborrow, Process.bind_apply]
    refine (hR.new value kind s).andThen ?_
    rintro s (error | bytes) s' hlends
    · exact hlends
    · rcases hcheck : element.check bytes.address bytes.window.byteLength with error | _
      · obtain ⟨t, _, _, _, _, hread, -, hgranted⟩ := hlends
        simp only [checked, hcheck]
        show R s { s' with loans := bytes.drop s'.loans }
        rwa [hgranted.session_eq]
      · simp only [checked, hcheck]
        exact hlends
  · rw [hthrow]
    exact lends_of_failing hR.throw s

end Reading

end GuestJs.QuickJs
