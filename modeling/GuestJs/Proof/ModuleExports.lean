import GuestJs.Host.Modules
import GuestJs.Library.Results
import GuestJs.QuickJs.TinyEngine
import Mathlib.Data.List.TakeDrop

/-!
# The exports of a host module

What a macro requires of the state of a module covers what the callbacks it emits look up in it, and
requirements are checked before anything is realised with a state. So no call of an emitted callback
misses its state, whichever modules and classes have been realised one inside the other and whichever
of these realisations failed; and a module that loads exports each of its members. The guest has one
class for each type as long as no realisation succeeds after another one of its type inside it.
-/

namespace GuestJs

open Transition Fallible

variable {E : QuickJs.Engine} {scope : Scope}

/-! ### What is required -/

theorem mem_foldl_insert_iff {α : Type} [DecidableEq α] {added : List α} {types : List α} {type : α} :
    type ∈ added.foldl (fun types type => if type ∈ types then types else types ++ [type]) types ↔
      type ∈ types ∨ type ∈ added := by
  induction added generalizing types with
  | nil => simp
  | cons first added ih =>
      rw [List.foldl_cons, ih, List.mem_cons]
      by_cases hmem : first ∈ types
      · rw [if_pos hmem]
        constructor
        · exact fun h => h.imp_right Or.inr
        · rintro (h | rfl | h)
          · exact Or.inl h
          · exact Or.inl hmem
          · exact Or.inr h
      · rw [if_neg hmem, List.mem_append, List.mem_singleton, or_assoc]

/-- The state has all that the expressions look up in it. -/
def Supplied (expressions : List Expression) (state : HostState) : Prop :=
  ∀ type, .state type ∈ expressions → state.check type = .ok ()

theorem Parameter.role_of_expression {parameter : Parameter} {type : String}
    (h : parameter.expression = .state type) : parameter.role = .state type := by
  obtain ⟨role, payload⟩ := parameter
  cases role with
  | state other =>
      cases h
      rfl
  | borrow | borrowMut => cases payload <;> cases h
  | _ => cases h

namespace Callable

variable {callable : Callable} {borrowed : Nat → Option PayloadType}

theorem mem_stateTypes {parameter : Parameter} {type : String}
    (hmem : parameter ∈ callable.parameters.mapIdx fun index role => ⟨role, borrowed index⟩)
    (h : parameter.expression = .state type) : type ∈ callable.stateTypes := by
  obtain ⟨index, hindex, rfl⟩ := List.mem_mapIdx.mp hmem
  have hrole : callable.parameters[index] = .state type := Parameter.role_of_expression h
  exact List.mem_filterMap.mpr ⟨_, List.getElem_mem hindex, by rw [hrole]; rfl⟩

theorem mem_stateTypes_of_classExpressions {self : PayloadType} {receiver : Receiver} {type : String}
    (h : .state type ∈ callable.classExpressions self receiver borrowed) :
    type ∈ callable.stateTypes := by
  unfold classExpressions ClassCallback.expressions at h
  split at h
  · obtain ⟨parameter, hmem, heq⟩ := List.mem_map.mp h
    exact mem_stateTypes hmem heq
  · rcases List.mem_append.mp h with h | h
    · cases receiver <;> simp [Receiver.expression] at h
    · obtain ⟨parameter, hmem, heq⟩ := List.mem_map.mp h
      exact mem_stateTypes hmem heq

theorem mem_requirements_of_moduleExpressions {self : String} {receiver : ModuleReceiver}
    (asynchronous : Bool) (name : String) {type : String}
    (h : .state type ∈ callable.moduleExpressions self receiver borrowed) :
    type ∈ (ModuleMember.function callable receiver asynchronous name).requirements self := by
  have hreceiver : .state type ∈ (receiver.expression self).toList →
      type ∈ (ModuleMember.function callable receiver asynchronous name).requirements self := by
    intro hmem
    cases receiver with
    | none => cases hmem
    | shared =>
        have heq : type = self := by simpa [ModuleReceiver.expression] using hmem
        exact heq ▸ List.mem_append_right _ List.mem_cons_self
  have hparameter : .state type ∈ (callable.parameters.mapIdx fun index role =>
      (⟨role, borrowed index⟩ : Parameter)).map Parameter.expression →
      type ∈ (ModuleMember.function callable receiver asynchronous name).requirements self := by
    intro hmem
    obtain ⟨parameter, hmem, heq⟩ := List.mem_map.mp hmem
    exact List.mem_append_left _ (mem_stateTypes hmem heq)
  unfold moduleExpressions at h
  split at h
  · exact (List.mem_append.mp h).elim hparameter hreceiver
  · exact (List.mem_append.mp h).elim hreceiver hparameter

end Callable

theorem HostModuleDefinition.accepted (definition : AcceptedModule) :
    definition.1.requirements = requirementsOf definition.1.self definition.1.members ∧
      (definition.1.members.map ModuleMember.name).Nodup := by
  obtain ⟨-, apply, options, item, haccepted⟩ := definition.2
  obtain ⟨collected, -, haccepted⟩ := Results.bind_eq_ok.mp haccepted
  obtain ⟨⟨⟩, hnodup, haccepted⟩ := Results.bind_eq_ok.mp haccepted
  rw [← Results.pure_eq_ok.mp haccepted]
  refine ⟨rfl, ?_⟩
  unfold Callable.require at hnodup
  split at hnodup
  · next hdecide => exact of_decide_eq_true hdecide
  · cases hnodup

/-- **The module macro requires enough.** -/
theorem HostModuleDefinition.supplied {definition : AcceptedModule} {state : HostState}
    (hcheck : (definition.1.declaration scope).requirements.forM state.check = .ok ())
    {expressions : List Expression}
    (hmem : .function expressions ∈ (definition.1.declaration scope).members.map Prod.snd) :
    Supplied expressions state := by
  intro type htype
  simp only [declaration, List.map_append, List.map_map, List.mem_append, List.mem_map,
    Function.comp_apply] at hmem hcheck
  rcases hmem with (⟨member, hmember, heq⟩ | ⟨_, -, heq⟩) | ⟨_, -, heq⟩
  · cases member with
    | function callable receiver asynchronous name =>
        simp only [ModuleMember.item, RealisedItem.function.injEq] at heq
        subst heq
        refine forM_eq_ok_iff.mp hcheck type ?_
        rw [(accepted definition).1]
        refine mem_foldl_insert_iff.mpr (Or.inr (List.mem_flatMap.mpr ⟨_, hmember, ?_⟩))
        exact Callable.mem_requirements_of_moduleExpressions asynchronous name htype
    | «namespace» callable name => cases heq
    | constant ident name => cases heq
  · cases heq
  · cases heq

/-- **The class macro requires enough.** -/
theorem Scope.supplied {type : String} {state : HostState}
    (hcheck : HostModules.checkClass scope type state = .ok ()) {expressions : List Expression}
    (hmem : .function expressions ∈ scope.classItems type) : Supplied expressions state := by
  obtain ⟨apply, options, item, haccepted⟩ := scope.accepted type
  obtain ⟨collected, -, haccepted⟩ := Results.bind_eq_ok.mp haccepted
  have hdefinition := Results.pure_eq_ok.mp haccepted
  intro required hrequired
  obtain ⟨member, hmember, heq⟩ := List.mem_map.mp hmem
  have hmember : member ∈ (scope.definition type).members := by
    simp only [List.mem_append, List.mem_filter] at hmember
    tauto
  cases member with
  | callable role callable key =>
      simp only [classItem, RealisedItem.function.injEq] at heq
      subst heq
      refine forM_eq_ok_iff.mp hcheck required ?_
      rw [← hdefinition] at hmember ⊢
      refine mem_foldl_insert_iff.mpr (Or.inr (List.mem_flatMap.mpr ⟨_, hmember, ?_⟩))
      exact Callable.mem_stateTypes_of_classExpressions hrequired
  | hook ident => cases heq
  | constant ident key => cases heq

/-! ### Realising -/

namespace HostModules

variable {s t : HostModules}

/-- What an item that was realised with a state is in the guest. -/
def Realised (s : HostModules) (state : HostState) : RealisedItem → Exported → Prop
  | .function expressions, .function index => s.functions[index]? = some ⟨expressions, state⟩
  | .hostClass type, .hostClass index =>
      (∃ object ∈ s.objects[index]?, object.type = type) ∧ (s.classes type).isSome = true
  | .other, .other => True
  | _, _ => False

/-- Functions and classes stay. -/
structure Grows (s t : HostModules) : Prop where
  functions : s.functions <+: t.functions
  objects : s.objects <+: t.objects
  classes : ∀ type, (s.classes type).isSome = true → (t.classes type).isSome = true

theorem getElem?_grown {α : Type} {xs ys : List α} (h : xs <+: ys) {index : Nat} {x : α}
    (hx : xs[index]? = some x) : ys[index]? = some x := by
  obtain ⟨added, rfl⟩ := h
  rw [List.getElem?_append_left (List.getElem?_eq_some_iff.mp hx).1, hx]

theorem Realised.mono {state : HostState} {item : RealisedItem} {exported : Exported}
    (h : s.Realised state item exported) (hgrows : s.Grows t) : t.Realised state item exported := by
  cases item with
  | function expressions =>
      cases exported with
      | function index => exact getElem?_grown hgrows.functions h
      | _ => exact h
  | hostClass type =>
      cases exported with
      | hostClass index =>
          obtain ⟨⟨object, hobject, htype⟩, hsome⟩ := h
          exact ⟨⟨object, getElem?_grown hgrows.objects hobject, htype⟩,
            hgrows.classes type hsome⟩
      | _ => exact h
  | other => cases exported <;> exact h

/-- The items before the position of the frame have been realised with its state, and the state has
what all of them look up. -/
structure FrameSound (scope : Scope) (s : HostModules) (frame : RealisationFrame) : Prop where
  supplied : ∀ expressions, .function expressions ∈ frame.items → Supplied expressions frame.state
  realised : List.Forall₂ (s.Realised frame.state) (frame.items.take frame.exported.length)
    frame.exported
  module : ∀ definition, frame.subject = .module definition →
    frame.items = (definition.1.declaration scope).members.map Prod.snd ∧
      frame.state = (definition.1.declaration scope).state

/-- A module whose member is being realised waits for it. -/
def Waiting : List RealisationFrame → Prop
  | [] => True
  | frame :: frames =>
      (∀ type, frame.subject = .hostClass type true → ∃ waiting ∈ frames.head?,
        waiting.items[waiting.exported.length]? = some (.hostClass type)) ∧ Waiting frames

/-- The exports of a loaded module, by the members of its declaration. -/
def Complete (scope : Scope) (s : HostModules) (module : LoadedModule) : Prop :=
  List.Forall₂ (fun member exported => exported.1 = member.1 ∧
      s.Realised (module.definition.1.declaration scope).state member.2 exported.2)
    (module.definition.1.declaration scope).members module.exports

structure Sound (scope : Scope) (s : HostModules) : Prop where
  classes : ∀ type, ∀ index ∈ s.classes type, ∃ object ∈ s.objects[index]?, object.type = type
  functions : ∀ function ∈ s.functions, Supplied function.expressions function.state
  frames : ∀ frame ∈ s.frames, s.FrameSound scope frame
  waiting : Waiting s.frames
  loaded : ∀ module ∈ s.loaded, s.Complete scope module

theorem sound_init : init.Sound scope where
  classes := by simp [init]
  functions := by simp [init]
  frames := by simp [init]
  waiting := trivial
  loaded := by simp [init]

theorem FrameSound.mono {frame : RealisationFrame} (h : s.FrameSound scope frame)
    (hgrows : s.Grows t) : t.FrameSound scope frame :=
  ⟨h.supplied, h.realised.imp fun _ _ hrealised => hrealised.mono hgrows, h.module⟩

theorem Complete.mono {module : LoadedModule} (h : s.Complete scope module) (hgrows : s.Grows t) :
    t.Complete scope module :=
  List.Forall₂.imp (fun _ _ hboth => ⟨hboth.1, hboth.2.mono hgrows⟩) h

/-- The next item of a frame has been realised. -/
theorem FrameSound.export {frame : RealisationFrame} (h : s.FrameSound scope frame)
    {item : RealisedItem} (hitem : frame.items[frame.exported.length]? = some item)
    {exported : Exported} (hrealised : s.Realised frame.state item exported) :
    s.FrameSound scope (RealisationFrame.export frame exported) := by
  refine ⟨h.supplied, ?_, h.module⟩
  show List.Forall₂ _ (frame.items.take (frame.exported ++ [exported]).length)
    (frame.exported ++ [exported])
  rw [List.length_append, List.length_singleton, List.take_add_one, hitem]
  have hlast : List.Forall₂ (s.Realised frame.state) [item] [exported] := .cons hrealised .nil
  exact List.rel_append h.realised hlast

theorem Waiting.tail {frames : List RealisationFrame} (h : Waiting frames) : Waiting frames.tail := by
  cases frames with
  | nil => trivial
  | cons frame frames => exact h.2

theorem Waiting.abandon {frames : List RealisationFrame} (h : Waiting frames) :
    Waiting (abandon frames) := by
  unfold HostModules.abandon
  split
  · exact h.2.tail
  · exact h.2
  · trivial

theorem mem_of_mem_abandon {frames : List RealisationFrame} {frame : RealisationFrame}
    (h : frame ∈ abandon frames) : frame ∈ frames := by
  unfold abandon at h
  split at h
  · exact List.mem_cons_of_mem _ (List.mem_of_mem_tail h)
  · exact List.mem_cons_of_mem _ h
  · exact h

/-- The innermost frame has gone on, while it waits for nothing. -/
theorem Waiting.export {frame : RealisationFrame} {frames : List RealisationFrame}
    (h : Waiting (frame :: frames)) (exported : Exported) :
    Waiting (RealisationFrame.export frame exported :: frames) := ⟨h.1, h.2⟩

/-- A state that has grown is sound when what is new in it is. -/
theorem Sound.grow (h : s.Sound scope) (hgrows : s.Grows t)
    (hclasses : ∀ type, ∀ index ∈ t.classes type,
      index ∈ s.classes type ∨ ∃ object ∈ t.objects[index]?, object.type = type)
    (hfunctions : ∀ function ∈ t.functions, function ∈ s.functions ∨
      Supplied function.expressions function.state)
    (hframes : ∀ frame ∈ t.frames, frame ∈ s.frames ∨ t.FrameSound scope frame)
    (hwaiting : Waiting t.frames)
    (hloaded : ∀ module ∈ t.loaded, module ∈ s.loaded ∨ t.Complete scope module) :
    t.Sound scope where
  classes type index hmem := by
    rcases hclasses type index hmem with hold | hnew
    · obtain ⟨object, hobject, htype⟩ := h.classes type index hold
      exact ⟨object, getElem?_grown hgrows.objects hobject, htype⟩
    · exact hnew
  functions function hmem := (hfunctions function hmem).elim (h.functions function) id
  frames frame hmem :=
    (hframes frame hmem).elim (fun hold => (h.frames frame hold).mono hgrows) id
  waiting := hwaiting
  loaded module hmem :=
    (hloaded module hmem).elim (fun hold => (h.loaded module hold).mono hgrows) id

theorem Sound.abandon (h : s.Sound scope) :
    ({ s with frames := abandon s.frames } : HostModules).Sound scope :=
  h.grow ⟨List.prefix_rfl, List.prefix_rfl, fun _ => id⟩ (fun _ _ => Or.inl) (fun _ => Or.inl)
    (fun _ hmem => Or.inl (mem_of_mem_abandon hmem)) h.waiting.abandon fun _ => Or.inl

theorem Sound.push (h : s.Sound scope) {subject : Realising} {state : HostState}
    {items : List RealisedItem}
    (hsupplied : ∀ expressions, .function expressions ∈ items → Supplied expressions state)
    (hmodule : ∀ definition, subject = .module definition →
      items = (definition.1.declaration scope).members.map Prod.snd ∧
        state = (definition.1.declaration scope).state)
    (hwaiting : ∀ type, subject = .hostClass type true → ∃ waiting ∈ s.frames.head?,
      waiting.items[waiting.exported.length]? = some (.hostClass type)) :
    (s.push subject state items).Sound scope := by
  refine h.grow ⟨List.prefix_rfl, List.prefix_rfl, fun _ => id⟩ (fun _ _ => Or.inl) (fun _ => Or.inl)
    ?_ ⟨hwaiting, h.waiting⟩ fun _ => Or.inl
  intro frame hmem
  rcases List.mem_cons.mp hmem with rfl | hmem
  · exact Or.inr ⟨hsupplied, .nil, hmodule⟩
  · exact Or.inl hmem

/-- The next item of the innermost frame is realised without realising anything inside. -/
theorem Sound.export (h : s.Sound scope) {frame : RealisationFrame} {frames : List RealisationFrame}
    (hframes : s.frames = frame :: frames) {item : RealisedItem}
    (hitem : frame.items[frame.exported.length]? = some item) (added : List HostFunction)
    (hadded : ∀ function ∈ added, Supplied function.expressions function.state)
    (exported : Exported)
    (hrealised : Realised { s with functions := s.functions ++ added } frame.state item exported) :
    ({ s with
      functions := s.functions ++ added
      frames := RealisationFrame.export frame exported :: frames } : HostModules).Sound scope := by
  have hgrows : s.Grows { s with
      functions := s.functions ++ added
      frames := RealisationFrame.export frame exported :: frames } :=
    ⟨List.prefix_append _ _, List.prefix_rfl, fun _ => id⟩
  have hframe := h.frames frame (hframes ▸ List.mem_cons_self)
  refine h.grow hgrows (fun _ _ => Or.inl) ?_ ?_ ?_ fun _ => Or.inl
  · intro function hmem
    exact (List.mem_append.mp hmem).imp_right (hadded function)
  · intro other hmem
    rcases List.mem_cons.mp hmem with rfl | hmem
    · exact Or.inr ((hframe.mono hgrows).export hitem (hrealised.mono
        ⟨List.prefix_rfl, List.prefix_rfl, fun _ => id⟩))
    · exact Or.inl (hframes ▸ List.mem_cons_of_mem _ hmem)
  · exact Waiting.export (hframes ▸ h.waiting) exported

theorem Sound.realiseItem (h : s.Sound scope) {frame : RealisationFrame}
    {frames : List RealisationFrame} (hframes : s.frames = frame :: frames) {item : RealisedItem}
    (hitem : frame.items[frame.exported.length]? = some item) :
    (s.realiseItem scope frame frames item).Sound scope := by
  have hframe := h.frames frame (hframes ▸ List.mem_cons_self)
  cases item with
  | function expressions =>
      have hsupplied := hframe.supplied expressions (List.mem_of_getElem? hitem)
      refine h.export hframes hitem [⟨expressions, frame.state⟩] ?_ (.function s.functions.length) ?_
      · exact List.forall_mem_singleton.mpr hsupplied
      · show (s.functions ++ [_])[s.functions.length]? = some _
        rw [List.getElem?_concat_length]
  | hostClass type =>
      unfold HostModules.realiseItem
      dsimp only
      split
      · exact h.abandon
      · next index _ hclass =>
          have hrealised : Realised { s with functions := s.functions ++ [] } frame.state
              (.hostClass type) (.hostClass index) :=
            ⟨h.classes type index hclass, by rw [hclass, Option.isSome_some]⟩
          simpa using h.export hframes hitem [] (List.forall_mem_nil _) (.hostClass index) hrealised
      · next hcheck _ =>
          refine h.push (fun expressions hmem => Scope.supplied hcheck hmem)
            (fun _ hsubject => by cases hsubject) ?_
          rintro _ ⟨⟩
          exact ⟨frame, by rw [hframes]; rfl, hitem⟩
  | other =>
      simpa [HostModules.realiseItem] using
        h.export hframes hitem [] (List.forall_mem_nil _) .other trivial

theorem forall₂_zip {ι α β : Type} {R : α → β → Prop} {entries : List (ι × α)} {values : List β}
    (h : List.Forall₂ R (entries.map Prod.snd) values) :
    List.Forall₂ (fun entry named => named.1 = entry.1 ∧ R entry.2 named.2) entries
      ((entries.map Prod.fst).zip values) := by
  induction entries generalizing values with
  | nil => exact .nil
  | cons entry entries ih =>
      cases h with
      | cons hfirst hrest => exact .cons ⟨rfl, hfirst⟩ (ih hrest)

theorem classes_insert (object : HostClassObject) (type : String) : (s.insert object).classes type =
    if type = object.type then some s.objects.length else s.classes type := by
  by_cases heq : type = object.type
  · subst heq
    simp [insert]
  · simp [insert, heq]

theorem getElem?_objects_insert (object : HostClassObject) :
    (s.insert object).objects[s.objects.length]? = some object :=
  List.getElem?_concat_length

theorem grows_insert (object : HostClassObject) : s.Grows (s.insert object) := by
  refine ⟨List.prefix_rfl, List.prefix_append _ _, fun type hsome => ?_⟩
  rw [classes_insert]
  split
  · rfl
  · exact hsome

/-- A class that has been realised is there from then on, and a module that waits for it goes on. -/
theorem Sound.realised (h : s.Sound scope) {frames : List RealisationFrame} (object : HostClassObject)
    {member : Bool} (hrest : Waiting frames) (hold : ∀ other ∈ frames, other ∈ s.frames)
    (hwaiting : Realising.hostClass object.type member = .hostClass object.type true →
      ∃ waiting ∈ frames.head?,
        waiting.items[waiting.exported.length]? = some (.hostClass object.type)) :
    ({ s.insert object with
      frames :=
        if member then
          (frames.head?.map fun frame =>
            RealisationFrame.export frame (.hostClass s.objects.length)).toList ++ frames.tail
        else frames } : HostModules).Sound scope := by
  set t : HostModules := { s.insert object with
    frames :=
      if member then
        (frames.head?.map fun frame =>
          RealisationFrame.export frame (.hostClass s.objects.length)).toList ++ frames.tail
      else frames } with ht
  have hgrows : s.Grows t :=
    ⟨(grows_insert object).functions, (grows_insert object).objects, (grows_insert object).classes⟩
  have hclasses : ∀ type, ∀ index ∈ t.classes type,
      index ∈ s.classes type ∨ ∃ object ∈ t.objects[index]?, object.type = type := by
    intro type index hindex
    have hindex : (s.insert object).classes type = some index := hindex
    rw [classes_insert] at hindex
    split at hindex
    next heq =>
      obtain rfl := Option.some.inj hindex
      exact Or.inr ⟨object, getElem?_objects_insert object, heq.symm⟩
    next => exact Or.inl hindex
  have hclass : ((s.insert object).classes object.type).isSome = true := by
    rw [classes_insert, if_pos rfl]
    rfl
  cases member with
  | false =>
      exact h.grow hgrows hclasses (fun _ => Or.inl) (fun other hmem => Or.inl (hold other hmem)) hrest
        fun _ => Or.inl
  | true =>
      obtain ⟨waiting, hhead, hitem⟩ := hwaiting rfl
      obtain ⟨others, rfl⟩ := List.head?_eq_some_iff.mp hhead
      refine h.grow hgrows hclasses (fun _ => Or.inl) (fun other hmem => ?_) ⟨hrest.1, hrest.2⟩
        fun _ => Or.inl
      rcases List.mem_cons.mp hmem with rfl | hmem
      · exact Or.inr (((h.frames waiting (hold waiting List.mem_cons_self)).mono hgrows).export hitem
          ⟨⟨object, getElem?_objects_insert object, rfl⟩, hclass⟩)
      · exact Or.inl (hold other (List.mem_cons_of_mem _ hmem))

theorem Sound.finish (h : s.Sound scope) (ht : s.step scope .finish = some t) : t.Sound scope := by
  simp only [step] at ht
  split at ht
  · cases ht
  next frame frames hframes =>
    have hframe := h.frames frame (hframes ▸ List.mem_cons_self)
    have hwaiting : Waiting (frame :: frames) := hframes ▸ h.waiting
    have hold : ∀ other ∈ frames, other ∈ s.frames := fun other hmem =>
      hframes ▸ List.mem_cons_of_mem _ hmem
    split at ht
    · cases ht
    next hdone =>
      have hrealised := hframe.realised
      rw [List.take_of_length_le (Nat.le_of_not_lt hdone)] at hrealised
      split at ht
      next definition hsubject =>
        obtain rfl := Option.some.inj ht
        obtain ⟨hitems, hstate⟩ := hframe.module definition hsubject
        rw [hitems, hstate] at hrealised
        refine h.grow ⟨List.prefix_rfl, List.prefix_rfl, fun _ => id⟩ (fun _ _ => Or.inl)
          (fun _ => Or.inl) (fun other hmem => Or.inl (hold other hmem)) hwaiting.2 fun module hmem => ?_
        rcases List.mem_append.mp hmem with hmem | hmem
        · exact Or.inl hmem
        · obtain rfl := List.mem_singleton.mp hmem
          exact Or.inr (forall₂_zip hrealised)
      next type member hsubject =>
        obtain rfl := Option.some.inj ht
        exact h.realised ⟨type, frame.state⟩ hwaiting.2 hold (hsubject ▸ hwaiting.1 type)

/-- Every step keeps what has been realised sound. -/
theorem Sound.step (h : s.Sound scope) {event : Event} (ht : s.step scope event = some t) :
    t.Sound scope := by
  cases event with
  | exports definition made =>
      simp only [HostModules.step] at ht
      split at ht
      · exact Option.some.inj ht ▸ h
      · split at ht
        · exact Option.some.inj ht ▸ h
        · next hcheck =>
            obtain rfl := Option.some.inj ht
            refine h.push (fun expressions hmem => HostModuleDefinition.supplied hcheck hmem) ?_ nofun
            rintro _ ⟨⟩
            exact ⟨rfl, rfl⟩
  | realise type state =>
      simp only [HostModules.step] at ht
      split at ht
      · next hcheck _ =>
          obtain rfl := Option.some.inj ht
          exact h.push (fun expressions hmem => Scope.supplied hcheck hmem)
            (fun _ hsubject => by cases hsubject) (fun _ hsubject => by cases hsubject)
      · exact Option.some.inj ht ▸ h
  | item accepted =>
      simp only [HostModules.step] at ht
      split at ht
      · cases ht
      next frame frames hframes =>
        split at ht
        · cases ht
        next item hitem =>
          split at ht
          · exact Option.some.inj ht ▸ h.realiseItem hframes hitem
          · exact Option.some.inj ht ▸ hframes ▸ h.abandon
  | finish => exact h.finish ht

theorem Supplied.evaluate {expressions : List Expression} {state : HostState}
    (h : Supplied expressions state) {type : String} (hmem : .state type ∈ expressions) (args : Args)
    (session : QuickJs.Session E) :
    (Expression.state type).evaluate args state session = .done (.ok ()) session := by
  show (Process.check fun _ => state.check type) session = _
  rw [h type hmem]
  rfl

/-! ### One class for each type -/

/-- Every class object is the one that the guest keeps for its type. -/
def Unique (s : HostModules) : Prop :=
  ∀ index, ∀ object ∈ s.objects[index]?, s.classes object.type = some index

/-- When a class has been realised, none of its type has been realised inside. -/
def Once (s : HostModules) : Event → Prop
  | .finish => ∀ frame ∈ s.frames.head?, ∀ type member, frame.subject = .hostClass type member →
      s.classes type = none
  | _ => True

theorem unique_init : init.Unique := by
  simp [Unique, init]

theorem unique_insert_iff (hunique : s.Unique) (hsound : s.Sound scope) (object : HostClassObject) :
    (s.insert object).Unique ↔ s.classes object.type = none := by
  constructor
  · intro h
    -- A class object that is replaced is still among them.
    by_contra hsome
    obtain ⟨index, hindex⟩ := Option.ne_none_iff_exists'.mp hsome
    obtain ⟨old, hold, htype⟩ := hsound.classes object.type index hindex
    have hlt := (List.getElem?_eq_some_iff.mp hold).1
    have hkept := h index old (getElem?_grown (grows_insert object).objects hold)
    rw [classes_insert, if_pos htype] at hkept
    exact Nat.ne_of_gt hlt (Option.some.inj hkept)
  · intro hnone index other hother
    rw [classes_insert]
    rcases Nat.lt_trichotomy index s.objects.length with hlt | rfl | hgt
    · have hold : s.objects[index]? = some other := by
        rwa [insert, List.getElem?_append_left hlt] at hother
      have hkept := hunique index other hold
      rw [if_neg fun heq => by simp [← heq, hkept] at hnone, hkept]
    · rw [getElem?_objects_insert] at hother
      rw [if_pos (Option.some.inj hother ▸ rfl)]
    · have hlt := (List.getElem?_eq_some_iff.mp hother).1
      simp only [insert, List.length_append, List.length_singleton] at hlt
      omega

/-- What a step does to the classes of a guest, unless it is the end of the realisation of one. -/
theorem step_classes {event : Event} (ht : s.step scope event = some t) :
    (t.classes = s.classes ∧ t.objects = s.objects ∧ s.Once event) ∨
      event = .finish ∧ ∃ frame frames, s.frames = frame :: frames ∧ ∃ type member,
        frame.subject = .hostClass type member ∧
          t.classes = (s.insert ⟨type, frame.state⟩).classes ∧
          t.objects = (s.insert ⟨type, frame.state⟩).objects := by
  cases event with
  | exports definition made =>
      simp only [step] at ht
      split at ht
      · exact Or.inl (Option.some.inj ht ▸ ⟨rfl, rfl, trivial⟩)
      · split at ht <;> exact Or.inl (Option.some.inj ht ▸ ⟨rfl, rfl, trivial⟩)
  | realise type state =>
      simp only [step] at ht
      split at ht <;> exact Or.inl (Option.some.inj ht ▸ ⟨rfl, rfl, trivial⟩)
  | item accepted =>
      simp only [step] at ht
      split at ht
      · cases ht
      next frame frames hframes =>
        split at ht
        · cases ht
        next item hitem =>
          split at ht
          · obtain rfl := Option.some.inj ht
            refine Or.inl ?_
            unfold realiseItem
            split
            · exact ⟨rfl, rfl, trivial⟩
            · exact ⟨rfl, rfl, trivial⟩
            · split <;> exact ⟨rfl, rfl, trivial⟩
          · exact Or.inl (Option.some.inj ht ▸ ⟨rfl, rfl, trivial⟩)
  | finish =>
      simp only [step] at ht
      split at ht
      · cases ht
      next frame frames hframes =>
        split at ht
        · cases ht
        next hdone =>
          split at ht
          next definition hsubject =>
            obtain rfl := Option.some.inj ht
            refine Or.inl ⟨rfl, rfl, fun other hother type member hclass => ?_⟩
            rw [hframes] at hother
            obtain rfl : frame = other := Option.some.inj hother
            exact nomatch hsubject.symm.trans hclass
          next type member hsubject =>
            obtain rfl := Option.some.inj ht
            exact Or.inr ⟨rfl, frame, frames, hframes, type, member, hsubject, rfl, rfl⟩

theorem unique_step_iff {event : Event} (hsound : s.Sound scope) (hunique : s.Unique)
    (ht : s.step scope event = some t) : t.Unique ↔ s.Once event := by
  rcases step_classes ht with ⟨hclasses, hobjects, honce⟩ |
    ⟨rfl, frame, frames, hframes, type, member, hsubject, hclasses, hobjects⟩
  · rw [Unique, hclasses, hobjects]
    exact iff_of_true hunique honce
  · rw [Unique, hclasses, hobjects]
    refine (unique_insert_iff hunique hsound ⟨type, frame.state⟩).trans ?_
    show s.classes type = none ↔ ∀ frame ∈ s.frames.head?, ∀ type member,
      frame.subject = .hostClass type member → s.classes type = none
    rw [hframes]
    constructor
    · rintro hnone _ ⟨⟩ type' member' hsubject'
      obtain ⟨rfl, -⟩ := Realising.hostClass.inj (hsubject.symm.trans hsubject')
      exact hnone
    · exact fun h => h frame rfl type member hsubject

/-- **One class for each type.** The guest keeps every class that has been realised, at every point of
a run, exactly when no realisation in it succeeds after one of the same type inside it. -/
theorem throughout_unique_iff (events : List Event) :
    (machine scope).Throughout Unique init events ↔ (machine scope).Along Once init events :=
  Machine.throughout_iff_along (fun _ _ _ hs ht => Sound.step hs ht)
    (fun _ _ _ hs hunique ht => unique_step_iff hs hunique ht) sound_init unique_init

/-- The classes among the exports of a loaded module are those that the guest keeps for their types. -/
def Canonical (scope : Scope) (s : HostModules) (module : LoadedModule) : Prop :=
  List.Forall₂ (fun member exported => ∀ type, member.2 = .hostClass type →
      ∃ index, exported.2 = .hostClass index ∧ s.classes type = some index)
    (module.definition.1.declaration scope).members module.exports

theorem Complete.canonical {module : LoadedModule} (h : s.Complete scope module)
    (hunique : s.Unique) : s.Canonical scope module := by
  refine List.Forall₂.imp ?_ h
  rintro ⟨name, item⟩ ⟨name', exported⟩ ⟨-, hrealised⟩ type rfl
  cases exported with
  | hostClass index =>
      obtain ⟨⟨object, hobject, htype⟩, -⟩ := hrealised
      exact ⟨index, rfl, htype ▸ hunique index object hobject⟩
  | function index => exact hrealised.elim
  | other => exact hrealised.elim

/-- **Exports are complete.** At every point of every run, however modules and classes are realised one
inside the other and whichever realisations have failed: each emitted function there is finds every
state it looks up when it is called; and a module that has loaded, from an impl the macro accepts
without a build hook, exports its members under their names, which are distinct, and its exceptions
and classes, in this order, each function with its own callback and the state of the module, and each
class as a class object of its type. Where no realisation of a class has succeeded after one of the
same type inside it, that class object is the one which the guest keeps for the type. -/
theorem exports_complete {events : List Event} (h : (machine scope).run init events = some s) :
    (∀ function ∈ s.functions, ∀ type, .state type ∈ function.expressions →
      ∀ (args : Args) (session : QuickJs.Session E),
        (Expression.state type).evaluate args function.state session = .done (.ok ()) session) ∧
    (∀ module ∈ s.loaded, (module.definition.1.members.map ModuleMember.name).Nodup ∧
      s.Complete scope module) ∧
    ((machine scope).Along Once init events → ∀ module ∈ s.loaded, s.Canonical scope module) := by
  have hsound : s.Sound scope :=
    Machine.run_invariant (fun _ _ _ hs ht => hs.step ht) sound_init h
  refine ⟨fun function hmem type htype args session => ?_, fun module hmem => ⟨?_, ?_⟩,
    fun honce module hmem => ?_⟩
  · exact Supplied.evaluate (hsound.functions function hmem) htype args session
  · exact (HostModuleDefinition.accepted module.definition).2
  · exact hsound.loaded module hmem
  · exact (hsound.loaded module hmem).canonical (((throughout_unique_iff events).mpr honce).last h)

section

open QuickJs.TinyEngine

/-- A class with a method that looks up the state of its module. -/
def counterDefinition : HostClassDefinition :=
  ⟨"Counter", [.callable .method ⟨"report", true, [.state "Metrics"], false⟩ (.name "report")],
    ["Metrics"]⟩

def counterScope : Scope where
  factory _ _ := "Metrics"
  borrowed _ _ _ := none
  receiver _ _ := .shared
  payload _ := ⟨0, "Counter"⟩
  exceptionName type := type
  definition _ := counterDefinition
  accepted _ := ⟨fun _ ident => ident, ⟨none, none⟩, ⟨"Counter", [.method (some ⟨[.method], none, none⟩)
    ⟨"report", .shared, [.state "Metrics"], false, false, false, .written, false⟩]⟩, rfl⟩

/-- A module with a shared receiver, and the class. -/
def metricsDefinition : AcceptedModule :=
  ⟨⟨"Metrics", "Metrics", [.function ⟨"increment", true, [.value], false⟩ .shared false "increment"],
    none, none, none, true, ["Metrics"], ["Counter"], []⟩, rfl, fun _ ident => ident,
    ⟨none, none, ["Counter"], []⟩, ⟨"Metrics", [.method (some ⟨[.function], false, none⟩)
      ⟨"increment", .shared, [.value], false, false, false, .written, false⟩]⟩, rfl⟩

def metricsRun : List Event :=
  [.exports metricsDefinition true, .item true, .item true, .item true, .finish, .finish]

theorem once_metricsRun : (machine counterScope).Along Once init metricsRun := by
  refine .cons rfl trivial (.cons rfl trivial (.cons rfl trivial (.cons rfl trivial ?_)))
  refine .cons rfl ?_ (.cons rfl ?_ trivial)
  · rintro _ ⟨⟩ _ _ ⟨⟩
    rfl
  · rintro _ ⟨⟩ _ _ ⟨⟩

theorem exports_complete_metrics :
    ∃ s, (machine counterScope).run init metricsRun = some s ∧
      (∃ function ∈ s.functions, function.expressions = [.thisPayload .shared ⟨0, "Counter"⟩,
        .state "Metrics"] ∧ (Expression.state "Metrics").evaluate (.new .null [] none) function.state
          (session guestFunction) = .done (.ok ()) (session guestFunction)) ∧
      ∃ module ∈ s.loaded,
        module.exports = [("increment", .function 0), ("Counter", .hostClass 0)] ∧
          s.Canonical counterScope module := by
  have hlast : ∃ s, (machine counterScope).run init metricsRun = some s ∧
      s.functions = [⟨[.state "Metrics", .next], some "Metrics"⟩,
        ⟨[.thisPayload .shared ⟨0, "Counter"⟩, .state "Metrics"], some "Metrics"⟩] ∧
      s.loaded = [⟨metricsDefinition,
        [("increment", .function 0), ("Counter", .hostClass 0)]⟩] := ⟨_, rfl, rfl, rfl⟩
  obtain ⟨s, hrun, hfunctions, hloaded⟩ := hlast
  have hmem : (⟨[.thisPayload .shared ⟨0, "Counter"⟩, .state "Metrics"], some "Metrics"⟩ :
      HostFunction) ∈ s.functions := hfunctions ▸ List.mem_cons_of_mem _ List.mem_cons_self
  have hstate : Expression.state "Metrics" ∈
      [Expression.thisPayload .shared ⟨0, "Counter"⟩, .state "Metrics"] :=
    List.mem_cons_of_mem _ List.mem_cons_self
  exact ⟨s, hrun, ⟨_, hmem, rfl, (exports_complete hrun).1 _ hmem "Metrics" hstate _ _⟩,
    ⟨_, hloaded ▸ List.mem_cons_self, rfl,
      (exports_complete (E := engine) hrun).2.2 once_metricsRun _
        (hloaded ▸ List.mem_cons_self)⟩⟩

/-- A class that is realised inside a realisation of its own type is replaced. -/
example : ((machine counterScope).run init [.realise "Counter" (some "Metrics"),
      .realise "Counter" (some "Metrics"), .item true, .finish, .item true, .finish]).map
        (fun s => (s.objects.length, s.classes "Counter")) = some (2, some 1) := rfl

end

end HostModules

end GuestJs
