import GuestJs.Driver.Machine
import Mathlib.Data.List.Perm.Basic
import Mathlib.Data.List.Flatten

/-!
# Outcomes of host futures

A host future that is registered is in flight until it is ready, its outcome waits until it is
published, and publishing it is one attempted call of one of its two resolvers. A batch that is being
published is out of the guest's hands: it lies in the frames of the step, and what a failing step
leaves there is gone.
-/

namespace GuestJs.Driver

def owed (owner : GuestId) (entries : List InFlight) (guest : GuestId) : List InFlight :=
  if owner = guest then entries else []

namespace Frame

/-- The entries of a guest that are in flight in a frame: those of the round being polled. -/
def inFlight (guest : GuestId) : Frame → List InFlight
  | .poll caller current rest => owed caller.guest (current :: rest) guest
  | _ => []

/-- The entries of a guest that have settled and wait in a frame: those of the batch being
published. -/
def waiting (guest : GuestId) : Frame → List InFlight
  | .publish caller current rest => owed caller.guest ((current :: rest).map Settled.entry) guest
  | .call caller rest => owed caller.guest (rest.map Settled.entry) guest
  | _ => []

def held (guest : GuestId) (frame : Frame) : List InFlight :=
  frame.inFlight guest ++ frame.waiting guest

end Frame

def PendingHostFutures.entries (futures : PendingHostFutures) : List InFlight :=
  futures.inFlight ++ futures.settled.map Settled.entry

namespace PendingHostFutures

theorem entries_take_settled (futures : PendingHostFutures) :
    (entries { futures with settled := [] } ++ futures.settled.map Settled.entry).Perm
      (futures.entries ++ []) := by
  unfold entries
  simp

theorem entries_take_inFlight (futures : PendingHostFutures) :
    (entries { futures with inFlight := [] } ++ futures.inFlight).Perm (futures.entries ++ []) := by
  unfold entries
  rw [List.append_nil]
  exact List.perm_append_comm

theorem entries_polled (futures : PendingHostFutures) (current : InFlight)
    (result : Option (Except Error Unit)) (rest : List InFlight) :
    ((futures.polled current result).entries ++ rest).Perm (futures.entries ++ current :: rest) := by
  unfold entries polled
  cases result with
  | none =>
      show (futures.inFlight ++ [current] ++ _ ++ rest).Perm _
      rw [List.append_assoc, List.append_assoc, List.append_assoc]
      refine List.Perm.append_left _ ?_
      show (current :: (_ ++ rest)).Perm _
      exact List.perm_middle.symm
  | some result =>
      show (futures.inFlight ++ List.map _ (futures.settled ++ [_]) ++ rest).Perm _
      rw [List.map_append, ← List.append_assoc, List.append_assoc]
      exact List.Perm.refl _

end PendingHostFutures

namespace World

def inFlight (w : World) (guest : GuestId) : List InFlight :=
  (w.guests guest).hostFutures.inFlight ++ w.stack.flatMap (Frame.inFlight guest)

def waiting (w : World) (guest : GuestId) : List InFlight :=
  (w.guests guest).hostFutures.settled.map Settled.entry ++ w.stack.flatMap (Frame.waiting guest)

/-- Every host future registered on the guest is in exactly one place, and only its own resolvers are
called with its outcome. -/
structure Conserved (w : World) (guest : GuestId) : Prop where
  placed : (w.inFlight guest ++ w.waiting guest ++ (w.guests guest).handed.map Handed.entry).Perm
    (w.guests guest).registered
  futures : ((w.guests guest).registered.map InFlight.future).Nodup
  resolvers : ((w.guests guest).registered.map InFlight.resolve).Nodup
  own : ∀ handed ∈ (w.guests guest).handed,
    handed.resolver = handed.entry.resolve ∨ handed.resolver = handed.entry.reject

/-- Publishing an outcome fails at most with the call of its resolver, and only the last of a
batch. -/
def FailsLast (w : World) (event : Event) : Prop :=
  match event, w.stack with
  | .refuse _, _ => False
  | .answered (.error _), .call _ rest :: _ => rest = []
  | _, _ => True

/-- What a guest has in flight and waiting, in no particular order. -/
def stock (guests : GuestId → Guest) (stack : List Frame) (guest : GuestId) : List InFlight :=
  (guests guest).hostFutures.entries ++ stack.flatMap (Frame.held guest)

/-- The stock of every guest is as given, and what was registered and handed over is as it was. -/
structure Keeps (guests : GuestId → Guest) (given : GuestId → List InFlight)
    (guests' : GuestId → Guest) (stack' : List Frame) : Prop where
  stock : ∀ guest, (stock guests' stack' guest).Perm (given guest)
  registered : ∀ guest, (guests' guest).registered = (guests guest).registered
  handed : ∀ guest, (guests' guest).handed = (guests guest).handed

variable {w w' : World} {guests guests' : GuestId → Guest} {guest : GuestId} {frame : Frame}
  {below stack stack' : List Frame} {given given' : GuestId → List InFlight}

theorem stock_perm (w : World) (guest : GuestId) :
    (stock w.guests w.stack guest).Perm (w.inFlight guest ++ w.waiting guest) := by
  unfold stock inFlight waiting PendingHostFutures.entries
  have hframes := (List.flatMap_append_perm w.stack (Frame.inFlight guest)
    (Frame.waiting guest)).symm
  refine (List.Perm.append_left _ hframes).trans ?_
  rw [List.append_assoc, List.append_assoc]
  refine List.Perm.append_left _ ?_
  rw [← List.append_assoc, ← List.append_assoc]
  exact List.Perm.append_right _ List.perm_append_comm

theorem stock_cons (guests : GuestId → Guest) (frame : Frame) (below : List Frame)
    (guest : GuestId) :
    (stock guests (frame :: below) guest).Perm (stock guests below guest ++ frame.held guest) := by
  unfold stock
  rw [List.flatMap_cons, List.append_assoc]
  exact List.Perm.append_left _ List.perm_append_comm

theorem stock_cons_of_held_eq_nil (guests : GuestId → Guest) (below : List Frame)
    (hheld : frame.held guest = []) :
    stock guests (frame :: below) guest = stock guests below guest := by
  unfold stock
  rw [List.flatMap_cons, hheld, List.nil_append]

theorem stock_congr (hguests : ∀ guest, (guests' guest).hostFutures = (guests guest).hostFutures)
    (stack : List Frame) (guest : GuestId) : stock guests' stack guest = stock guests stack guest := by
  unfold stock
  rw [hguests]

theorem owed_self (entries : List InFlight) : owed guest entries guest = entries := if_pos rfl

theorem owed_nil (owner guest : GuestId) : owed owner [] guest = [] := by
  unfold owed
  split <;> rfl

theorem stock_poll (guests : GuestId → Guest) (caller : Caller) (current : InFlight)
    (rest : List InFlight) (below : List Frame) (guest : GuestId) :
    (stock guests (.poll caller current rest :: below) guest).Perm
      (stock guests below guest ++ owed caller.guest (current :: rest) guest) := by
  have hheld : Frame.held guest (.poll caller current rest) =
      owed caller.guest (current :: rest) guest := List.append_nil _
  rw [← hheld]
  exact stock_cons guests _ below guest

theorem stock_setHostFutures (w : World) (guest : GuestId) (futures : PendingHostFutures)
    (below : List Frame) {out into : List InFlight}
    (h : (futures.entries ++ out).Perm ((w.guests guest).hostFutures.entries ++ into))
    (other : GuestId) :
    (stock (w.setHostFutures guest futures).guests below other ++ owed guest out other).Perm
      (stock w.guests below other ++ owed guest into other) := by
  unfold stock
  rw [guests_setHostFutures]
  by_cases hother : other = guest
  · subst hother
    rw [if_pos rfl, owed_self, owed_self, List.append_assoc, List.append_assoc]
    refine (List.Perm.append_left _ List.perm_append_comm).trans ?_
    refine List.Perm.trans ?_ (List.Perm.append_left _ List.perm_append_comm)
    rw [← List.append_assoc, ← List.append_assoc]
    exact List.Perm.append_right _ h
  · have hne : guest ≠ other := fun heq => hother heq.symm
    rw [if_neg hother]
    unfold owed
    rw [if_neg hne, if_neg hne]

namespace Keeps

theorem refl (guests : GuestId → Guest) (stack : List Frame) :
    Keeps guests (World.stock guests stack) guests stack :=
  ⟨fun _ => List.Perm.refl _, fun _ => rfl, fun _ => rfl⟩

theorem mono (h : Keeps guests given guests' stack')
    (hgiven : ∀ guest, (given guest).Perm (given' guest)) : Keeps guests given' guests' stack' :=
  ⟨fun guest => (h.stock guest).trans (hgiven guest), h.registered, h.handed⟩

theorem ofStock (h : Keeps guests given guests' stack')
    (hstock : ∀ guest, World.stock guests' stack guest = World.stock guests' stack' guest) :
    Keeps guests given guests' stack :=
  ⟨fun guest => by rw [hstock]; exact h.stock guest, h.registered, h.handed⟩

theorem setActivity (h : Keeps guests given w.guests stack') (guest : GuestId)
    (activity : GuestActivity) : Keeps guests given (w.setActivity guest activity).guests stack' := by
  refine ⟨fun other => ?_, fun other => ?_, fun other => ?_⟩
  · rw [stock_congr (fun other => hostFutures_setActivity w guest other activity)]
    exact h.stock other
  · rw [registered_setActivity]
    exact h.registered other
  · rw [handed_setActivity]
    exact h.handed other

/-- Before a step goes on, entries of its guest are taken from the guest or given to it. -/
theorem exchange {futures : PendingHostFutures} {out into : List InFlight}
    (hentries : (futures.entries ++ out).Perm ((w.guests guest).hostFutures.entries ++ into))
    (h : Keeps (w.setHostFutures guest futures).guests
      (fun other => World.stock (w.setHostFutures guest futures).guests below other ++
        owed guest out other) guests' stack') :
    Keeps w.guests (fun other => World.stock w.guests below other ++ owed guest into other) guests'
      stack' := by
  refine ⟨fun other => ?_, fun other => ?_, fun other => ?_⟩
  · exact (h.stock other).trans (stock_setHostFutures w guest futures below hentries other)
  · rw [h.registered, registered_setHostFutures]
  · rw [h.handed, handed_setHostFutures]

theorem trans {guests'' : GuestId → Guest} (h : Keeps guests given guests' stack)
    (h' : Keeps guests' (World.stock guests' stack) guests'' stack') :
    Keeps guests given guests'' stack' :=
  ⟨fun guest => (h'.stock guest).trans (h.stock guest),
    fun guest => (h'.registered guest).trans (h.registered guest),
    fun guest => (h'.handed guest).trans (h.handed guest)⟩

theorem enter (henter : w.enter guest = .ok w') (h : Keeps w'.guests given guests' stack') :
    Keeps w.guests given guests' stack' := by
  obtain ⟨-, activity, -, rfl⟩ := enter_eq_ok henter
  refine ⟨h.stock, fun other => ?_, fun other => ?_⟩
  · exact (h.registered other).trans (registered_setActivity w guest other activity)
  · exact (h.handed other).trans (handed_setActivity w guest other activity)

end Keeps

theorem stock_enter (henter : w.enter guest = .ok w') (stack : List Frame) (other : GuestId) :
    stock w'.guests stack other = stock w.guests stack other := by
  obtain ⟨-, activity, -, rfl⟩ := enter_eq_ok henter
  exact stock_congr (fun other => hostFutures_setActivity w guest other activity) stack other

theorem keeps_finishStep (w : World) (caller : Caller) (result : Except Error Progress)
    (below : List Frame) :
    Keeps w.guests (stock w.guests below) (w.finishStep caller result below).guests below := by
  rw [guests_finishStep]
  exact Keeps.refl w.guests below

theorem keeps_finishEntered (w : World) (caller : Caller) (result : Except Error Progress)
    (below : List Frame) :
    Keeps w.guests (stock w.guests below) (w.finishEntered caller result below).guests below :=
  (keeps_finishStep w caller result below).setActivity caller.guest _

theorem keeps_publishNext (w : World) (caller : Caller) (below : List Frame)
    (batch : List Settled) :
    Keeps w.guests
      (fun other => stock w.guests below other ++ owed caller.guest (batch.map Settled.entry) other)
      (w.publishNext caller below batch).guests (w.publishNext caller below batch).stack := by
  cases batch with
  | nil =>
      have hfinish : Keeps w.guests (stock w.guests below) (w.finish caller.guest).guests below :=
        (Keeps.refl w.guests below).setActivity caller.guest _
      refine (hfinish.ofStock fun other => ?_).mono fun other => ?_
      · exact stock_cons_of_held_eq_nil _ below rfl
      · rw [List.map_nil, owed_nil, List.append_nil]
  | cons settled rest =>
      exact ⟨fun other => stock_cons w.guests (.publish caller settled rest) below other,
        fun _ => rfl, fun _ => rfl⟩

theorem keeps_publish (w : World) (caller : Caller) (below : List Frame) :
    Keeps w.guests (stock w.guests below) (w.publish caller below).guests
      (w.publish caller below).stack := by
  rcases w.publish_cases caller below with ⟨-, heq⟩ | ⟨error, -, heq⟩ | ⟨entered, henter, heq⟩
  · rw [heq]
    exact (Keeps.refl w.guests below).ofStock fun other => stock_cons_of_held_eq_nil _ below rfl
  · rw [heq]
    exact keeps_finishStep w caller (.error error) below
  · rw [heq]
    have htaken :=
      PendingHostFutures.entries_take_settled (entered.guests caller.guest).hostFutures
    have hbatch := Keeps.exchange htaken (keeps_publishNext _ caller below _)
    refine (Keeps.enter henter hbatch).mono fun other => ?_
    rw [owed_nil, List.append_nil, stock_enter henter]

theorem keeps_pollNext (w : World) (caller : Caller) (below : List Frame) (round : List InFlight) :
    Keeps w.guests (fun other => stock w.guests below other ++ owed caller.guest round other)
      (w.pollNext caller below round).guests (w.pollNext caller below round).stack := by
  cases round with
  | nil =>
      refine (keeps_publish w caller below).mono fun other => ?_
      rw [owed_nil, List.append_nil]
  | cons entry rest =>
      exact ⟨fun other => stock_poll w.guests caller entry rest below other, fun _ => rfl,
        fun _ => rfl⟩

theorem keeps_stepEventLoop (w : World) (caller : Caller) (below : List Frame) :
    Keeps w.guests (stock w.guests below) (w.stepEventLoop caller below).guests
      (w.stepEventLoop caller below).stack := by
  have htaken := PendingHostFutures.entries_take_inFlight (w.guests caller.guest).hostFutures
  have hround := Keeps.exchange htaken (keeps_pollNext _ caller below _)
  refine hround.mono fun other => ?_
  rw [owed_nil, List.append_nil]

theorem keeps_polled (w : World) (caller : Caller) (current : InFlight) (rest : List InFlight)
    (below : List Frame) (result : Option (Except Error Unit)) :
    Keeps w.guests
      (fun other => stock w.guests below other ++ owed caller.guest (current :: rest) other)
      (w.polled caller current rest below result).guests
      (w.polled caller current rest below result).stack :=
  Keeps.exchange ((w.guests caller.guest).hostFutures.entries_polled current result rest)
    (keeps_pollNext _ caller below rest)

theorem keeps_pollJobs (w : World) (caller : Caller) (published : Bool) (below : List Frame) :
    Keeps w.guests (stock w.guests below) (w.pollJobs caller published below).guests
      (w.pollJobs caller published below).stack := by
  rcases w.pollJobs_cases caller published below with ⟨error, -, heq⟩ |
    ⟨active, origin, jobs, hactivate, -, -, heq⟩ | ⟨active, hactivate, -, heq⟩
  · rw [heq]
    exact keeps_finishStep w caller (.error error) below
  · rw [heq]
    obtain ⟨activity, -, rfl⟩ := activate_eq_ok hactivate
    have hactive : Keeps w.guests (stock w.guests below)
        (w.setActivity caller.guest activity).guests below :=
      (Keeps.refl w.guests below).setActivity caller.guest activity
    exact hactive.ofStock fun other => stock_cons_of_held_eq_nil _ below rfl
  · rw [heq]
    obtain ⟨activity, -, rfl⟩ := activate_eq_ok hactivate
    have hactive : Keeps w.guests (stock w.guests below)
        (w.setActivity caller.guest activity).guests below :=
      (Keeps.refl w.guests below).setActivity caller.guest activity
    exact hactive.trans (keeps_finishEntered _ caller _ below)

theorem keeps_settled (w : World) (task : TaskId) (future : PromiseFuture) :
    Keeps w.guests (stock w.guests w.stack) (w.settled task future).guests
      (w.settled task future).stack := by
  rcases w.settled_cases task future with ⟨error, -, heq⟩ | ⟨entered, henter, hsettled⟩
  · rw [heq]
    exact Keeps.refl w.guests w.stack
  · have hentered : Keeps w.guests (stock w.guests w.stack) entered.guests w.stack :=
      (Keeps.enter henter (Keeps.refl entered.guests w.stack)).mono fun other => by
        rw [stock_enter henter]
    have hleft : Keeps w.guests (stock w.guests w.stack) (entered.leave future.guest).guests
        w.stack := hentered.setActivity future.guest _
    rcases hsettled with ⟨-, heq⟩ | ⟨value, -, heq⟩ | ⟨reason, -, heq⟩
    · rw [heq]
      exact hleft.trans (keeps_stepEventLoop _ _ _)
    · rw [heq]
      show Keeps w.guests _ (entered.leave future.guest).guests entered.stack
      rw [World.stack_enter henter]
      exact hleft
    · rw [heq]
      show Keeps w.guests _ entered.guests (.reason task future :: entered.stack)
      rw [World.stack_enter henter]
      exact hentered.ofStock fun other => stock_cons_of_held_eq_nil _ w.stack rfl

theorem keeps_pollPromise (w : World) (task : TaskId) (future : PromiseFuture) :
    Keeps w.guests (stock w.guests w.stack) (w.pollPromise task future).guests
      (w.pollPromise task future).stack := by
  obtain ⟨armed, ⟨error, -, heq⟩ | heq⟩ := w.pollPromise_cases task future
  · rw [heq]
    exact Keeps.refl w.guests w.stack
  · rw [heq]
    exact keeps_settled (w.modifyTask task fun _ =>
      ⟨{ future with armed := some armed }, .polling, false⟩) task _

theorem placed_iff (w : World) (guest : GuestId) (handed registered : List InFlight) :
    (w.inFlight guest ++ w.waiting guest ++ handed).Perm registered ↔
      (stock w.guests w.stack guest ++ handed).Perm registered :=
  ⟨(List.Perm.append_right _ (stock_perm w guest)).trans,
    (List.Perm.append_right _ (stock_perm w guest).symm).trans⟩

/-- What keeps the stock keeps every future where it can be found. -/
theorem Conserved.ofStock (h : Conserved w guest)
    (hstock : (stock w'.guests w'.stack guest).Perm (stock w.guests w.stack guest))
    (hregistered : (w'.guests guest).registered = (w.guests guest).registered)
    (hhanded : (w'.guests guest).handed = (w.guests guest).handed) : Conserved w' guest := by
  constructor
  · rw [hhanded, hregistered, placed_iff]
    exact (List.Perm.append_right _ hstock).trans ((placed_iff w guest _ _).mp h.placed)
  · rw [hregistered]
    exact h.futures
  · rw [hregistered]
    exact h.resolvers
  · rw [hhanded]
    exact h.own

theorem Conserved.keeps (h : Conserved w guest)
    (hkeeps : Keeps w.guests (stock w.guests w.stack) w'.guests w'.stack) : Conserved w' guest :=
  h.ofStock (hkeeps.stock guest) (hkeeps.registered guest) (hkeeps.handed guest)

theorem Conserved.length_eq (h : Conserved w guest) :
    (stock w.guests w.stack guest).length + (w.guests guest).handed.length =
      (w.guests guest).registered.length := by
  have hplaced := h.placed.length_eq
  rw [List.length_append, List.length_map, ← (stock_perm w guest).length_eq] at hplaced
  exact hplaced

/-- What is out of stock without having been handed over is lost. -/
theorem Conserved.not_of_less (h : Conserved w guest)
    (hkeeps : Keeps w.guests given w'.guests w'.stack)
    (hless : (given guest).length < (stock w.guests w.stack guest).length) :
    ¬ Conserved w' guest := by
  intro h'
  have hbefore := h.length_eq
  have hafter := h'.length_eq
  rw [(hkeeps.stock guest).length_eq, hkeeps.handed, hkeeps.registered] at hafter
  omega

theorem conserved_register {future : FutureId} {promise : PromiseId} {owner : GuestId}
    (h : Conserved w guest) (hnew : w.canRegister owner future promise = true) :
    Conserved (w.register owner future promise) guest := by
  by_cases howner : guest = owner
  · subst howner
    obtain ⟨-, hnew⟩ := Bool.and_eq_true_iff.mp hnew
    have hnew : ∀ entry ∈ (w.guests guest).registered,
        entry.future ≠ future ∧ entry.resolve ≠ .resolve promise := by
      simpa using hnew
    let entry : InFlight := ⟨.resolve promise, .reject promise, future⟩
    have hstate : (w.register guest future promise).guests guest =
        { w.guests guest with
          hostFutures := (w.guests guest).hostFutures.push entry
          registered := entry :: (w.guests guest).registered } := Function.update_self ..
    have hstock : (stock (w.register guest future promise).guests w.stack guest).Perm
        (entry :: stock w.guests w.stack guest) := by
      unfold stock
      rw [hstate]
      have hentries : ((w.guests guest).hostFutures.push entry).entries.Perm
          (entry :: (w.guests guest).hostFutures.entries) := by
        show ((_ ++ [entry]) ++ _).Perm (entry :: (_ ++ _))
        rw [List.append_assoc]
        exact List.perm_middle
      exact hentries.append_right _
    constructor
    · rw [placed_iff, hstate]
      have hplaced := (placed_iff w guest _ _).mp h.placed
      exact (List.Perm.append_right _ hstock).trans (hplaced.cons entry)
    · rw [hstate]
      refine List.nodup_cons.mpr ⟨fun hmem => ?_, h.futures⟩
      obtain ⟨found, hfound, heq⟩ := List.mem_map.mp hmem
      exact (hnew found hfound).1 heq
    · rw [hstate]
      refine List.nodup_cons.mpr ⟨fun hmem => ?_, h.resolvers⟩
      obtain ⟨found, hfound, heq⟩ := List.mem_map.mp hmem
      exact (hnew found hfound).2 heq
    · rw [hstate]
      exact h.own
  · have hother : (w.register owner future promise).guests guest = w.guests guest :=
      Function.update_of_ne howner _ _
    refine h.ofStock ?_ (by rw [hother]) (by rw [hother])
    unfold stock
    rw [hother]
    exact List.Perm.refl _

theorem conserved_hand {caller : Caller} {current : Settled} {rest : List Settled}
    (h : Conserved w guest) (hstack : w.stack = .publish caller current rest :: below)
    (converted : Except Error Unit) :
    Conserved { w.hand caller.guest ⟨current.entry, current.resolver converted⟩ with
      stack := .call caller rest :: below } guest := by
  have hplaced := (placed_iff w guest _ _).mp h.placed
  rw [hstack] at hplaced
  have hsame : ∀ stack other,
      stock (w.hand caller.guest ⟨current.entry, current.resolver converted⟩).guests stack other =
        stock w.guests stack other :=
    stock_congr fun other => w.field_update caller.guest other Guest.hostFutures rfl
  have hbefore := stock_cons w.guests (.publish caller current rest) below guest
  have hafter := stock_cons w.guests (.call caller rest) below guest
  by_cases howner : guest = caller.guest
  · have hwaiting : Frame.held guest (.publish caller current rest) =
        current.entry :: Frame.held guest (.call caller rest) := by
      simp [Frame.held, Frame.inFlight, Frame.waiting, owed, howner]
    rw [hwaiting] at hbefore
    have hhanded : (stock w.guests (.call caller rest :: below) guest ++
        current.entry :: (w.guests guest).handed.map Handed.entry).Perm
        (stock w.guests (.publish caller current rest :: below) guest ++
          (w.guests guest).handed.map Handed.entry) := by
      refine List.perm_middle.trans ?_
      refine List.Perm.append_right _ (List.Perm.trans (hafter.cons _) ?_)
      exact (List.perm_middle.symm).trans hbefore.symm
    have hstate : (w.hand caller.guest ⟨current.entry, current.resolver converted⟩).guests guest =
        { w.guests guest with
          handed := ⟨current.entry, current.resolver converted⟩ :: (w.guests guest).handed } := by
      rw [howner]
      exact Function.update_self ..
    constructor
    · rw [placed_iff]
      dsimp only
      rw [hsame, hstate]
      exact hhanded.trans hplaced
    · dsimp only
      rw [hstate]
      exact h.futures
    · dsimp only
      rw [hstate]
      exact h.resolvers
    · dsimp only
      rw [hstate]
      exact List.forall_mem_cons.mpr ⟨current.resolver_eq_or converted, h.own⟩
  · have hne : ¬ caller.guest = guest := fun heq => howner heq.symm
    have hother : (w.hand caller.guest ⟨current.entry, current.resolver converted⟩).guests guest =
        w.guests guest := Function.update_of_ne howner _ _
    have hcall : Frame.held guest (.call caller rest) = [] := by
      simp [Frame.held, Frame.inFlight, Frame.waiting, owed, hne]
    have hpublish : Frame.held guest (.publish caller current rest) = [] := by
      simp [Frame.held, Frame.inFlight, Frame.waiting, owed, hne]
    refine h.ofStock ?_ (by rw [hother]) (by rw [hother])
    dsimp only
    rw [hsame, hstack, stock_cons_of_held_eq_nil w.guests below hcall,
      stock_cons_of_held_eq_nil w.guests below hpublish]

theorem Keeps.push (h : Keeps w.guests (World.stock w.guests w.stack) guests' w.stack)
    (hheld : ∀ guest, frame.held guest = []) :
    Keeps w.guests (World.stock w.guests w.stack) guests' (frame :: w.stack) :=
  h.ofStock fun guest => stock_cons_of_held_eq_nil guests' w.stack (hheld guest)

theorem Keeps.pop (h : Keeps w.guests (World.stock w.guests w.stack) guests' w.stack)
    (hstack : w.stack = frame :: below) (hheld : ∀ guest, frame.held guest = []) :
    Keeps w.guests (World.stock w.guests w.stack) guests' below := by
  refine h.ofStock fun guest => ?_
  rw [hstack, stock_cons_of_held_eq_nil guests' below (hheld guest)]

theorem Keeps.ofBelow (h : Keeps w.guests (World.stock w.guests below) guests' stack')
    (hstack : w.stack = frame :: below) (hheld : ∀ guest, frame.held guest = []) :
    Keeps w.guests (World.stock w.guests w.stack) guests' stack' := by
  refine h.mono fun guest => ?_
  rw [hstack, stock_cons_of_held_eq_nil w.guests below (hheld guest)]

/-- A step that stops with a batch in its hands. -/
theorem not_conserved_of_dropped {entries : List InFlight} (h : ∀ guest, Conserved w guest)
    (hkeeps : Keeps w.guests (stock w.guests below) w'.guests w'.stack)
    (hstack : w.stack = frame :: below) (hheld : frame.held guest = entries)
    (hsome : entries ≠ []) : ¬ ∀ guest, Conserved w' guest := by
  intro h'
  refine (h guest).not_of_less hkeeps ?_ (h' guest)
  have hpos := List.length_pos_of_ne_nil hsome
  rw [hstack, (stock_cons w.guests frame below guest).length_eq, List.length_append, hheld]
  omega

/-- **One step.** Every future is where it can be found after a step exactly when the step does not
fail with outcomes in its hands. -/
theorem conserved_step_iff {event : Event} (h : ∀ guest, Conserved w guest)
    (hstep : w.step event = some w') : (∀ guest, Conserved w' guest) ↔ FailsLast w event := by
  have hrefl := Keeps.refl w.guests w.stack
  have of_keeps : Keeps w.guests (stock w.guests w.stack) w'.guests w'.stack → FailsLast w event →
      ((∀ guest, Conserved w' guest) ↔ FailsLast w event) :=
    fun hkeeps hlast => iff_of_true (fun guest => (h guest).keeps hkeeps) hlast
  cases happens hstep with
  | tick | signal | complete | wake | enqueue | settle | lend | release | spawn | drop =>
      exact of_keeps hrefl trivial
  | @close guest =>
      have hsame : ∀ stack other, stock (w.close guest).guests stack other =
          stock w.guests stack other :=
        stock_congr fun other => w.field_update guest other Guest.hostFutures rfl
      refine of_keeps ⟨fun other => ?_, fun other => ?_, fun other => ?_⟩ trivial
      · rw [hsame]
        exact List.Perm.refl _
      · exact w.field_update guest other Guest.registered rfl
      · exact w.field_update guest other Guest.handed rfl
  | @enter guest activity =>
      exact of_keeps ((hrefl.setActivity guest activity).push fun _ => rfl) trivial
  | @activate guest activity =>
      exact of_keeps ((hrefl.setActivity guest activity).push fun _ => rfl) trivial
  | @callback guest activity =>
      exact of_keeps ((hrefl.setActivity guest activity).push fun _ => rfl) trivial
  | @leave frame guest below hstack hframe =>
      have hheld : ∀ guest, frame.held guest = [] := by
        rcases hframe with rfl | rfl | rfl <;> exact fun _ => rfl
      have hfinish : Keeps w.guests (stock w.guests w.stack) (w.finish guest).guests w.stack :=
        hrefl.setActivity guest _
      exact of_keeps (hfinish.pop hstack hheld) trivial
  | call => exact of_keeps (hrefl.push fun _ => rfl) trivial
  | «return» hstack => exact of_keeps (hrefl.pop hstack fun _ => rfl) trivial
  | register hnew => exact iff_of_true (fun other => conserved_register (h other) hnew) trivial
  | @step guest => exact of_keeps (keeps_stepEventLoop w (.host guest) w.stack) trivial
  | @pending caller current rest below hstack =>
      refine of_keeps ((keeps_polled w caller current rest below none).mono fun other => ?_) trivial
      rw [hstack]
      exact (stock_poll w.guests caller current rest below other).symm
  | @ready caller current rest below hstack result =>
      refine of_keeps ((keeps_polled (w.setReady current.future false) caller current rest below
        (some result)).mono fun other => ?_) trivial
      rw [hstack]
      exact (stock_poll w.guests caller current rest below other).symm
  | hand hstack converted =>
      exact iff_of_true (fun other => conserved_hand (h other) hstack converted) trivial
  | @refuse caller current rest below hstack =>
      refine iff_of_false ?_ id
      have hheld : Frame.held caller.guest (.publish caller current rest) =
          current.entry :: rest.map Settled.entry := by
        simp [Frame.held, Frame.inFlight, Frame.waiting, owed_self]
      exact not_conserved_of_dropped h (keeps_finishEntered w caller _ below) hstack hheld
        (List.cons_ne_nil _ _)
  | @answered caller rest below hstack =>
      refine of_keeps ((keeps_publishNext w caller below rest).mono fun other => ?_) trivial
      rw [hstack]
      exact (stock_cons w.guests (.call caller rest) below other).symm
  | @failed caller rest below hstack error =>
      have hlast : FailsLast w (.answered (.error error)) ↔ rest = [] := by
        unfold FailsLast
        rw [hstack]
      rw [hlast]
      by_cases hrest : rest = []
      · subst hrest
        refine iff_of_true (fun other => (h other).keeps ?_) rfl
        refine (keeps_finishEntered w caller _ below).ofBelow hstack fun other => ?_
        simp [Frame.held, Frame.inFlight, Frame.waiting, owed_nil]
      · refine iff_of_false ?_ hrest
        have hheld : Frame.held caller.guest (.call caller rest) = rest.map Settled.entry := by
          simp [Frame.held, Frame.inFlight, Frame.waiting, owed_self]
        exact not_conserved_of_dropped h (keeps_finishEntered w caller _ below) hstack hheld
          (by simpa using hrest)
  | @pollJobs caller published below hstack =>
      exact of_keeps ((keeps_pollJobs w caller published below).ofBelow hstack fun _ => rfl) trivial
  | @jobDone caller published origin below hstack =>
      exact of_keeps ((keeps_finishEntered w caller _ below).ofBelow hstack fun _ => rfl) trivial
  | @jobFailed caller published origin below hstack =>
      exact of_keeps ((keeps_finishEntered w caller _ below).ofBelow hstack fun _ => rfl) trivial
  | @poll task state => exact of_keeps (keeps_pollPromise w task state.future) trivial
  | @reason task future below captured error hstack =>
      have hfinish : Keeps w.guests (stock w.guests w.stack) (w.finish future.guest).guests w.stack :=
        hrefl.setActivity future.guest _
      exact of_keeps (hfinish.pop hstack fun _ => rfl) trivial

/-- A step that fails leaves what waits outside its batch. -/
theorem waiting_publishFailed (w : World) (caller : Caller) (error : Error) (below : List Frame)
    (guest : GuestId) : (w.publishFailed caller error below).waiting guest =
      (w.guests guest).hostFutures.settled.map Settled.entry ++
        below.flatMap (Frame.waiting guest) := by
  unfold waiting publishFailed finishEntered leave finish
  dsimp only
  rw [hostFutures_setActivity, guests_finishStep]
  rfl

/-- What waits once more with the outcomes that a step which fails has left of its batch. -/
theorem perm_publishFailed_iff (w : World) (caller : Caller) (error : Error) (below : List Frame)
    (left : List InFlight) :
    (∀ guest, ((w.publishFailed caller error below).waiting guest).Perm
      (owed caller.guest left guest ++ (w.publishFailed caller error below).waiting guest)) ↔
        left = [] := by
  constructor
  · intro hwaiting
    have hlength := (hwaiting caller.guest).length_eq
    rw [owed_self, List.length_append] at hlength
    exact List.eq_nil_of_length_eq_zero (by omega)
  · rintro rfl guest
    rw [owed_nil, List.nil_append]

/-- **A failed call.** The other outcomes still wait for a later step exactly when the resolver was
that of the last of its batch. -/
theorem waiting_failed_iff {caller : Caller} {rest : List Settled} {error : Error}
    (hstack : w.stack = .call caller rest :: below)
    (hstep : w.step (.answered (.error error)) = some w') :
    (∀ guest, (w'.waiting guest).Perm (w.waiting guest)) ↔
      FailsLast w (.answered (.error error)) := by
  have hfailed : w' = w.publishFailed caller error below := by
    cases happens hstep with
    | failed htop => cases hstack.symm.trans htop; rfl
  have hbefore : ∀ guest, (w.waiting guest).Perm
      (owed caller.guest (rest.map Settled.entry) guest ++ w'.waiting guest) := by
    intro guest
    rw [hfailed, waiting_publishFailed, waiting, hstack]
    exact List.perm_append_comm_assoc ..
  have hlast : FailsLast w (.answered (.error error)) ↔ rest.map Settled.entry = [] := by
    unfold FailsLast
    rw [hstack]
    exact List.map_eq_nil_iff.symm
  rw [hlast, ← perm_publishFailed_iff w caller error below, ← hfailed]
  exact forall_congr' fun guest => ⟨fun h => h.trans (hbefore guest), fun h =>
    h.trans (hbefore guest).symm⟩

/-- **A failure before the call.** The outcome itself is gone, and the others still wait exactly when
it was the last of its batch. -/
theorem waiting_refused_iff {caller : Caller} {current : Settled} {rest : List Settled}
    {error : Error} (hstack : w.stack = .publish caller current rest :: below)
    (hstep : w.step (.refuse error) = some w') :
    (∀ guest, (owed caller.guest [current.entry] guest ++ w'.waiting guest).Perm
      (w.waiting guest)) ↔ rest = [] := by
  have hfailed : w' = w.publishFailed caller error below := by
    cases happens hstep with
    | refuse htop => cases hstack.symm.trans htop; rfl
  have hbatch : ∀ guest, owed caller.guest ((current :: rest).map Settled.entry) guest =
      owed caller.guest [current.entry] guest ++
        owed caller.guest (rest.map Settled.entry) guest := by
    intro guest
    unfold owed
    split <;> rfl
  have hbefore : ∀ guest, (w.waiting guest).Perm (owed caller.guest [current.entry] guest ++
      (owed caller.guest (rest.map Settled.entry) guest ++ w'.waiting guest)) := by
    intro guest
    rw [hfailed, waiting_publishFailed, waiting, hstack, ← List.append_assoc, ← hbatch]
    exact List.perm_append_comm_assoc ..
  rw [← List.map_eq_nil_iff (f := Settled.entry),
    ← perm_publishFailed_iff w caller error below, ← hfailed]
  refine forall_congr' fun guest => ⟨fun h => ?_, fun h => ?_⟩
  · exact (List.perm_append_left_iff _).mp (h.trans (hbefore guest))
  · exact (h.append_left _).trans (hbefore guest).symm

theorem conserved_init (clock : Clock) (policies : GuestId → ExecutionPolicy) (guest : GuestId) :
    Conserved (init clock policies) guest :=
  ⟨List.Perm.refl _, List.nodup_nil, List.nodup_nil, fun _ hmem => nomatch hmem⟩

/-- **No outcome is lost or handed over twice.** In every run of any guests, every host future that
was registered is in flight, or has settled and waits, or was handed to a resolver of its own, and in
one of these places only, exactly when publishing fails at most with the call of the last resolver of
a batch. -/
theorem throughout_conserved_iff (clock : Clock) (policies : GuestId → ExecutionPolicy)
    (events : List Event) :
    machine.Throughout (fun w => ∀ guest, Conserved w guest) (init clock policies) events ↔
      machine.Along FailsLast (init clock policies) events :=
  Transition.Machine.throughout_iff_along (I := fun _ => True) (fun _ _ _ _ _ => trivial)
    (fun _ _ _ _ h hstep => conserved_step_iff h hstep) trivial (conserved_init clock policies)

/-- Two futures settle in one round, and the resolver of the first one's promise is not called
because memory of the guest is on loan. -/
def lostRun : List Event :=
  [.enter 1, .lend 1, .register 1 0 ⟨1, 0⟩, .register 1 1 ⟨1, 1⟩, .step 1, .ready (.ok ()),
    .ready (.ok ()), .hand (.ok ()), .answered (.error (.borrow .shared "ArrayBuffer"))]

theorem not_throughout_conserved_lostRun :
    ¬ machine.Throughout (fun w => ∀ guest, Conserved w guest)
      (init ⟨0, fun _ => false⟩ fun _ => .new) lostRun := by
  intro hconserved
  have hrun : ∃ w, machine.run (init ⟨0, fun _ => false⟩ fun _ => .new) lostRun = some w ∧
      w.inFlight 1 = [] ∧ w.waiting 1 = [] ∧ (w.guests 1).handed.length = 1 ∧
      (w.guests 1).registered.length = 2 := ⟨_, rfl, rfl, rfl, rfl, rfl⟩
  obtain ⟨w, hend, hinFlight, hwaiting, hhanded, hregistered⟩ := hrun
  have hplaced := (hconserved.last hend 1).placed.length_eq
  rw [hinFlight, hwaiting, List.nil_append, List.nil_append, List.length_map, hhanded,
    hregistered] at hplaced
  omega

end World

end GuestJs.Driver
