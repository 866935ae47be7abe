import GuestJs.Proof.PayloadGuards
import Mathlib.Data.List.Count

/-!
# The arguments of an emitted callback

The parameters of a function take the arguments of a call by position, whatever stands between them
and whatever runs while they are converted.
-/

namespace GuestJs

open QuickJs Transition

variable {E : Engine}

/-- The argument of a parameter with `taken` positional parameters before it. -/
def ParameterRole.argument (args : Args) (taken : Nat) : ParameterRole → Argument
  | .value | .borrow | .borrowMut => .one (args.values.getD taken .undefined)
  | .rest => .many (args.values.drop taken)
  | .this | .thisRef => .one args.this
  | .enter | .context | .state _ => .injected

/-- The arguments of the parameters, `taken` positional ones being before them. -/
def Parameter.arguments (args : Args) (taken : Nat) (parameters : List Parameter) : List Argument :=
  parameters.mapIdx fun index parameter => parameter.role.argument args
    (taken + (parameters.take index).countP (·.role.consumesArgument))

namespace ClassCallback

/-- What the body of the callback is called with. -/
def arguments (callback : ClassCallback) (args : Args) : List Argument :=
  (if callback.asynchronous ∨ callback.receiver = .none then [] else [.one args.this]) ++
    Parameter.arguments args 0 callback.parameters

end ClassCallback

/-! ### Expressions, one after the other -/

namespace Expression

/-- What the expressions give, when each succeeds. -/
def arguments : List Expression → Args → List Argument
  | [], _ => []
  | expression :: others, args =>
      (expression.take args).1 :: arguments others (expression.take args).2

end Expression

namespace Parameter

variable {args : Args} {parameters : List Parameter} {parameter : Parameter} {taken : Nat}

theorem arguments_cons (args : Args) (taken : Nat) (parameter : Parameter)
    (parameters : List Parameter) :
    arguments args taken (parameter :: parameters) = parameter.role.argument args taken ::
      arguments args (taken + if parameter.role.consumesArgument then 1 else 0) parameters := by
  unfold arguments
  rw [List.mapIdx_cons]
  refine congrArg₂ List.cons (by simp) ?_
  congr 1
  funext index other
  rw [List.take_succ_cons, List.countP_cons, Nat.add_assoc, Nat.add_comm (List.countP _ _)]

theorem argument_of_not_consumes {role : ParameterRole} (h : role.consumesArgument = false)
    (first second : Nat) : role.argument args first = role.argument args second := by
  cases role <;> first | rfl | cases h

theorem take_expression (parameter : Parameter) (args : Args) :
    (parameter.expression.take args).1 = parameter.role.argument args args.next := by
  obtain ⟨role, payload⟩ := parameter
  cases role <;> cases payload <;> rfl

theorem next_take_expression (parameter : Parameter) (args : Args) (hrest : parameter.role ≠ .rest) :
    (parameter.expression.take args).2 =
      { args with next := args.next + if parameter.role.consumesArgument then 1 else 0 } := by
  obtain ⟨role, payload⟩ := parameter
  cases role <;> cases payload <;> first | rfl | exact absurd rfl hrest

/-- Parameters that take no argument do not depend on how many have been taken. -/
theorem arguments_of_none (h : ∀ parameter ∈ parameters, parameter.role.consumesArgument = false)
    (taken : Nat) : Expression.arguments (parameters.map expression) args =
      arguments args taken parameters := by
  induction parameters generalizing args taken with
  | nil => rfl
  | cons parameter parameters ih =>
      obtain ⟨hfirst, hrest⟩ := List.forall_mem_cons.mp h
      have hne : parameter.role ≠ .rest := by
        intro heq
        rw [heq] at hfirst
        cases hfirst
      rw [List.map_cons, Expression.arguments, arguments_cons, take_expression,
        next_take_expression parameter args hne, hfirst, argument_of_not_consumes hfirst _ taken]
      exact congrArg _ (ih hrest taken)

/-- **By position.** The cursor of the arguments is the number of the positional parameters before,
as long as only the last of them is a rest. -/
theorem arguments_of_restLast (args : Args)
    (h : Callable.restLast (parameters.map role) = true) :
    Expression.arguments (parameters.map expression) args =
      arguments args args.next parameters := by
  induction parameters generalizing args with
  | nil => rfl
  | cons parameter parameters ih =>
      rw [List.map_cons, Callable.restLast, Bool.and_eq_true] at h
      obtain ⟨hfirst, hlater⟩ := h
      rw [List.map_cons, Expression.arguments, arguments_cons, take_expression]
      by_cases hrest : parameter.role = .rest
      · have hnone : ∀ other ∈ parameters, other.role.consumesArgument = false := by
          simpa [hrest] using hfirst
        rw [arguments_of_none hnone (args.next + if parameter.role.consumesArgument then 1 else 0)]
        obtain ⟨role, payload⟩ := parameter
        cases hrest
        rfl
      · rw [next_take_expression parameter args hrest]
        exact congrArg _ (ih _ hlater)

end Parameter

/-! ### Accepted signatures -/

namespace ClassCallback

variable {callback : ClassCallback}

theorem Emitted.restLast (h : callback.Emitted) :
    Callable.restLast (callback.parameters.map Parameter.role) = true := by
  obtain ⟨signature, callable, haccepted, -, -, hroles, -⟩ := h
  unfold Callable.new at haccepted
  repeat' split at haccepted
  all_goals first | (cases haccepted; done) | skip
  next hrest =>
    obtain rfl := Except.ok.inj haccepted
    rw [hroles]
    simpa using hrest

/-- The parameters of an asynchronous function borrow no payload. -/
theorem Emitted.guard_eq_none (h : callback.Emitted) (hasync : callback.asynchronous = true)
    {expression : Expression} (hmem : expression ∈ callback.expressions) (argument : Argument) :
    expression.guard argument = none := by
  obtain ⟨signature, callable, -, hvalid, -, hroles, hsame⟩ := h
  rw [expressions, if_pos hasync] at hmem
  obtain ⟨⟨role, payload⟩, hparameter, rfl⟩ := List.mem_map.mp hmem
  have hborrows : role.borrowsContextOrArgument = false := by
    have hrole : role ∈ callable.parameters := hroles ▸ List.mem_map_of_mem hparameter
    unfold Callable.validateAsync Callable.require at hvalid
    split at hvalid
    · next hcondition =>
      rw [← hsame, hasync] at hcondition
      simp only [Bool.true_and, Bool.not_or, Bool.and_eq_true, Bool.not_eq_true',
        List.any_eq_false] at hcondition
      simpa using hcondition.2 role hrole
    · cases hvalid
  cases role <;> first | rfl | cases hborrows

theorem arguments_expressions (hrest : Callable.restLast (callback.parameters.map Parameter.role) = true)
    (args : Args) (hnext : args.next = 0) :
    Expression.arguments callback.expressions args = callback.arguments args := by
  obtain ⟨self, receiver, parameters, asynchronous⟩ := callback
  unfold expressions arguments
  have hparameters := Parameter.arguments_of_restLast args hrest
  rw [hnext] at hparameters
  cases asynchronous
  · cases receiver
    · simpa [Receiver.expression] using hparameters
    · simpa [Receiver.expression, Expression.arguments, Expression.take] using hparameters
    · simpa [Receiver.expression, Expression.arguments, Expression.take] using hparameters
  · simpa using hparameters

end ClassCallback

/-! ### Runs -/

namespace HostCalls

variable {s t : HostCalls E} {session : Session E} {call : HostCall}

/-- The arguments of a call and what its other expressions will give are what its expressions give
from the start. -/
def Placed (call : HostCall) : Prop :=
  call.arguments ++ Expression.arguments (call.expressions.drop call.arguments.length) call.args =
    Expression.arguments call.expressions { call.args with next := 0 }

theorem placed_new (expressions : List Expression) (state : HostState) {args : Args}
    (hnext : args.next = 0) : Placed (.new expressions state args) := by
  unfold Placed HostCall.new
  rw [← hnext]
  rfl

theorem Placed.take (h : Placed call) {expression : Expression}
    (hnext : call.next = some expression) : Placed (call.take expression) := by
  obtain ⟨hlt, heq⟩ := List.getElem?_eq_some_iff.mp hnext
  have hdrop : call.expressions.drop call.arguments.length =
      expression :: call.expressions.drop (call.arguments.length + 1) := by
    rw [List.drop_eq_getElem_cons hlt, heq]
  unfold Placed at h ⊢
  rw [hdrop, Expression.arguments] at h
  have hstart : ({ (call.take expression).args with next := 0 } : Args) = { call.args with next := 0 } := by
    cases expression <;> rfl
  show (call.arguments ++ [(expression.take call.args).1]) ++ Expression.arguments
    (call.expressions.drop (call.arguments ++ [_]).length) (expression.take call.args).2 = _
  rw [hstart, List.append_assoc, List.length_append]
  exact h

theorem placed_step {event : Event E} (h : ∀ call ∈ s.calls, Placed call)
    (ht : s.step event = some t) : ∀ call ∈ t.calls, Placed call := by
  cases moves_of_step ht with
  | enter expressions state hargs =>
      exact List.forall_mem_cons.mpr ⟨placed_new expressions state hargs, h⟩
  | convert hcalls hnext _ | evaluate hcalls hnext _ =>
      rw [hcalls] at h
      obtain ⟨hfirst, hothers⟩ := List.forall_mem_cons.mp h
      exact List.forall_mem_cons.mpr ⟨hfirst.take hnext, hothers⟩
  | leave hcalls =>
      rw [hcalls] at h
      exact (List.forall_mem_cons.mp h).2
  | guest heap => exact h
  | instantiate type hnone => exact h
  | collect hfree => exact h

/-- **Arguments by position.** At every point of every run a call of an emitted callback has
evaluated a first part of its arguments: each positional parameter takes the argument at its own
position, or undefined beyond the last, and the rest those after it. All of them have been evaluated
when the body runs. An asynchronous function holds no payload at any time. -/
theorem arguments_by_position {events : List (Event E)} {callback : ClassCallback}
    (hfree : ∀ object cell, session.payloads object = some cell → cell.borrowed = none)
    (h : (machine E).run (init session) events = some s) (hmem : call ∈ s.calls)
    (hcallback : call.expressions = callback.expressions) (hemitted : callback.Emitted) :
    call.arguments <+: callback.arguments call.args ∧
      (call.next = none → call.arguments = callback.arguments call.args) ∧
      (callback.asynchronous = true → call.guards = []) := by
  have hplaced : Placed call := Machine.run_invariant (I := fun s => ∀ call ∈ s.calls, Placed call)
    (fun _ _ _ hs ht => placed_step hs ht) (s := init session) nofun h call hmem
  have hspec : Expression.arguments call.expressions { call.args with next := 0 } =
      callback.arguments call.args := by
    rw [hcallback, ClassCallback.arguments_expressions hemitted.restLast _ rfl]
    rfl
  rw [Placed, hspec] at hplaced
  refine ⟨⟨_, hplaced⟩, fun hbody => ?_, fun hasync => ?_⟩
  · rw [List.drop_of_length_le (List.getElem?_eq_none_iff.mp hbody), Expression.arguments,
      List.append_nil] at hplaced
    exact hplaced
  · have hsound : Sound s :=
      Machine.run_invariant (fun _ _ _ hs ht => hs.step ht) (sound_init hfree) h
    rw [hsound.holds call hmem]
    show List.filterMap id _ = []
    rw [List.filterMap_eq_nil_iff]
    intro guard hguard
    obtain ⟨index, hindex⟩ := List.getElem?_of_mem (List.mem_reverse.mp hguard)
    obtain ⟨expression, argument, hexpression, -, rfl⟩ := List.getElem?_zipWith_eq_some.mp hindex
    exact hemitted.guard_eq_none hasync (hcallback ▸ List.mem_of_getElem? hexpression) argument

section

open TinyEngine

/-- A function of a text and the rest, called with three arguments. -/
def logRun : List (Event engine) :=
  let method : ClassCallback := ⟨⟨0, "Counter"⟩, .shared, [⟨.enter, none⟩, ⟨.value, none⟩, ⟨.rest, none⟩],
    false⟩
  [.call method.expressions none (.object 20) [.null, .boolean true, .boolean false] none, .evaluate,
    .evaluate, .converted true, .converted true]

theorem arguments_by_position_log :
    ∃ s, (machine engine).run (init counterSession) logRun = some s ∧ ∃ call ∈ s.calls,
      call.arguments =
        [.one (.object 20), .injected, .one .null, .many [.boolean true, .boolean false]] := by
  let method : ClassCallback := ⟨⟨0, "Counter"⟩, .shared, [⟨.enter, none⟩, ⟨.value, none⟩, ⟨.rest, none⟩],
    false⟩
  have hemitted : method.Emitted := ⟨⟨"log", .shared, [.enter, .value, .rest], false, false, false,
    .written, false⟩, _, rfl, rfl, rfl, rfl, rfl⟩
  have hlast : ∃ s call, (machine engine).run (init counterSession) logRun = some s ∧
      s.calls = [call] ∧ call.expressions = method.expressions ∧ call.next = none ∧
      method.arguments call.args =
        [.one (.object 20), .injected, .one .null, .many [.boolean true, .boolean false]] :=
    ⟨_, _, rfl, rfl, rfl, rfl, rfl⟩
  obtain ⟨s, call, hrun, hcalls, hcallback, hbody, harguments⟩ := hlast
  have hmem : call ∈ s.calls := by rw [hcalls]; exact List.mem_singleton_self call
  have hplaced := arguments_by_position counterSession_free hrun hmem hcallback hemitted
  exact ⟨s, hrun, call, hmem, (hplaced.2.1 hbody).trans harguments⟩

end

end HostCalls

end GuestJs
