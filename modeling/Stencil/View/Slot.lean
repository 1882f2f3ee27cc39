/-! The routine of a view for one type of model.

A slot holds a routine once a compile has succeeded. Until then requests queue for the turn. The request with
the turn takes hold of the compile in flight, starts one if there is none, and waits for it to end. A success
is stored and answers everybody; a failure answers the request with the turn, and the next one tries again. A
compile goes on when the request that waits for it is given up or runs out of time: the next request with the
turn joins it. One step takes a request from a point where it waits to the next one, so that steps of different
requests and of compiles may follow each other in any order.
-/

set_option autoImplicit false

namespace Stencil

variable {ρ ε : Type}

inductive Ending (ρ ε : Type) where
  | returned (result : Except ε ρ)
  /-- The compile broke down; the error says so. -/
  | panicked (error : ε)

def Ending.result : Ending ρ ε → Except ε ρ
  | .returned result => result
  | .panicked error => .error error

inductive CompileTask (ρ ε : Type) where
  | running
  | ended (ending : Ending ρ ε)

/-- How far the request with the turn has come. -/
inductive Phase (ρ ε : Type) where
  /-- It waits for the guard of the compile in flight. -/
  | locking
  /-- It holds the guard and waits for the compile to end. -/
  | joining
  /-- It has collected the outcome of the compile, and waits for nothing any more. -/
  | concluding (result : Except ε ρ)

def Phase.remaining : Phase ρ ε → Nat
  | .locking => 3
  | .joining => 2
  | .concluding _ => 1

structure Slot (ρ ε : Type) where
  stored : Option ρ
  /-- All compiles that have been started; a compile is known by its place. -/
  tasks : List (CompileTask ρ ε)
  /-- The compile whose outcome nobody has collected. -/
  inFlight : Option Nat
  guard : Option Nat
  /-- The request whose turn it is to bring about the routine. -/
  turn : Option (Nat × Phase ρ ε)
  waiting : List Nat

inductive Answer (ρ ε : Type) where
  | ready (routine : ρ)
  | failed (error : ε)
  | timedOut

def Answer.ofResult : Except ε ρ → Answer ρ ε
  | .ok routine => .ready routine
  | .error error => .failed error

inductive SlotEvent (ρ ε : Type) where
  | arrive (request : Nat)
  /-- A request in the queue finds the routine stored. -/
  | wake (request : Nat)
  /-- A request in the queue gets the turn. -/
  | grant (request : Nat)
  /-- The request with the turn gets the guard. -/
  | lock
  /-- The request with the turn finds the compile ended. -/
  | collect
  /-- The request with the turn is answered. -/
  | conclude
  /-- A request is given up by whoever made it. -/
  | leave (request : Nat)
  /-- A request has waited for a compile for as long as it may. -/
  | expire (request : Nat)
  /-- A compile ends. -/
  | land (task : Nat) (ending : Ending ρ ε)

inductive SlotEffect (ρ ε : Type) where
  | launch (task : Nat)
  | join (task : Nat)
  | collect (task : Nat)
  | answer (request : Nat) (answer : Answer ρ ε)

namespace Slot

def empty : Slot ρ ε :=
  { stored := none, tasks := [], inFlight := none, guard := none, turn := none, waiting := [] }

def isHeldBy (slot : Slot ρ ε) (request : Nat) : Bool :=
  match slot.turn with
  | some (_, .concluding _) => false
  | some (holder, _) => holder = request
  | none => false

def dismiss (slot : Slot ρ ε) (request : Nat) : Slot ρ ε :=
  { slot with turn := none, guard := slot.guard.filter (· ≠ request) }

def landed? (slot : Slot ρ ε) : Option (Nat × Ending ρ ε) :=
  match slot.inFlight with
  | none => none
  | some task =>
    match slot.tasks[task]? with
    | some (.ended ending) => some (task, ending)
    | _ => none

def arrive (slot : Slot ρ ε) (request : Nat) : Slot ρ ε × List (SlotEffect ρ ε) :=
  match slot.stored with
  | some routine => (slot, [.answer request (.ready routine)])
  | none => ({ slot with waiting := slot.waiting ++ [request] }, [])

def wake (slot : Slot ρ ε) (request : Nat) : Slot ρ ε × List (SlotEffect ρ ε) :=
  match slot.stored with
  | some routine =>
    if request ∈ slot.waiting then
      ({ slot with waiting := slot.waiting.erase request }, [.answer request (.ready routine)])
    else (slot, [])
  | none => (slot, [])

def grant (slot : Slot ρ ε) (request : Nat) : Slot ρ ε × List (SlotEffect ρ ε) :=
  if slot.stored.isNone ∧ slot.turn.isNone ∧ request ∈ slot.waiting then
    ({ slot with turn := some (request, .locking), waiting := slot.waiting.erase request }, [])
  else (slot, [])

/-- Joins the compile in flight, or starts one. -/
def lock (slot : Slot ρ ε) : Slot ρ ε × List (SlotEffect ρ ε) :=
  match slot.turn, slot.guard with
  | some (request, .locking), none =>
    let held := { slot with turn := some (request, .joining), guard := some request }
    match slot.inFlight with
    | some task => (held, [.join task])
    | none =>
      let task := slot.tasks.length
      ({ held with tasks := slot.tasks ++ [.running], inFlight := some task }, [.launch task])
  | _, _ => (slot, [])

def collect (slot : Slot ρ ε) : Slot ρ ε × List (SlotEffect ρ ε) :=
  match slot.turn, slot.landed? with
  | some (request, .joining), some (task, ending) =>
    ({ slot with
        turn := some (request, .concluding ending.result)
        guard := slot.guard.filter (· ≠ request)
        inFlight := none }, [.collect task])
  | _, _ => (slot, [])

def conclude (slot : Slot ρ ε) : Slot ρ ε × List (SlotEffect ρ ε) :=
  match slot.turn with
  | some (request, .concluding (.ok routine)) =>
    ({ slot with stored := some routine, turn := none }, [.answer request (.ready routine)])
  | some (request, .concluding (.error error)) =>
    ({ slot with turn := none }, [.answer request (.failed error)])
  | _ => (slot, [])

def leave (slot : Slot ρ ε) (request : Nat) : Slot ρ ε :=
  if slot.isHeldBy request then slot.dismiss request
  else { slot with waiting := slot.waiting.erase request }

def expire (slot : Slot ρ ε) (request : Nat) : Slot ρ ε × List (SlotEffect ρ ε) :=
  match slot.turn with
  | some (holder, .joining) =>
    if holder = request then (slot.dismiss request, [.answer request .timedOut]) else (slot, [])
  | _ => (slot, [])

def land (slot : Slot ρ ε) (task : Nat) (ending : Ending ρ ε) : Slot ρ ε :=
  match slot.tasks[task]? with
  | some .running => { slot with tasks := slot.tasks.set task (.ended ending) }
  | _ => slot

/-- The slot after an event, and what it does. An event that cannot happen changes nothing. -/
def step (slot : Slot ρ ε) : SlotEvent ρ ε → Slot ρ ε × List (SlotEffect ρ ε)
  | .arrive request => slot.arrive request
  | .wake request => slot.wake request
  | .grant request => slot.grant request
  | .lock => slot.lock
  | .collect => slot.collect
  | .conclude => slot.conclude
  | .leave request => (slot.leave request, [])
  | .expire request => slot.expire request
  | .land task ending => (slot.land task ending, [])

def run (slot : Slot ρ ε) : List (SlotEvent ρ ε) → Slot ρ ε × List (SlotEffect ρ ε)
  | [] => (slot, [])
  | event :: rest =>
    let (slot, effects) := slot.step event
    let (slot, more) := slot.run rest
    (slot, effects ++ more)

/-- What a slot can do by itself, with no request or compile to act. The queue is served from its head. -/
def next? (slot : Slot ρ ε) : Option (SlotEvent ρ ε) :=
  match slot.turn, slot.waiting with
  | some (_, .locking), _ => if slot.guard.isNone then some .lock else none
  | some (_, .joining), _ => if slot.landed?.isSome then some .collect else none
  | some (_, .concluding _), _ => some .conclude
  | none, request :: _ => if slot.stored.isSome then some (.wake request) else some (.grant request)
  | none, [] => none

def remaining (slot : Slot ρ ε) : Nat :=
  4 * slot.waiting.length + (slot.turn.map fun turn => turn.2.remaining).getD 0

theorem remaining_step_lt {slot : Slot ρ ε} {event : SlotEvent ρ ε} (h : slot.next? = some event) :
    (slot.step event).1.remaining < slot.remaining := by
  obtain ⟨stored, tasks, inFlight, guard, turn, waiting⟩ := slot
  -- A request that waits counts for more than all phases of a turn, and each phase for more than the next one.
  cases turn with
  | none =>
    cases waiting with
    | nil => cases h
    | cons request rest =>
      cases stored with
      | none =>
        cases h
        simp [step, grant, remaining, Phase.remaining]
        omega
      | some _ =>
        cases h
        simp [step, wake, remaining]
  | some turn =>
    obtain ⟨request, phase⟩ := turn
    cases phase with
    | locking =>
      cases guard <;> cases h
      cases inFlight <;> simp [step, lock, remaining, Phase.remaining]
    | joining =>
      simp only [next?] at h
      split at h <;> cases h
      rename_i landed
      obtain ⟨⟨task, ending⟩, found⟩ := Option.isSome_iff_exists.mp landed
      simp [step, collect, found, remaining, Phase.remaining]
    | concluding result =>
      cases h
      cases result <;> simp [step, conclude, remaining, Phase.remaining]

def settle (slot : Slot ρ ε) : Slot ρ ε × List (SlotEffect ρ ε) :=
  match _ready : slot.next? with
  | none => (slot, [])
  | some event =>
    let (settled, more) := (slot.step event).1.settle
    (settled, (slot.step event).2 ++ more)
termination_by slot.remaining
decreasing_by exact remaining_step_lt _ready

def react (slot : Slot ρ ε) (event : SlotEvent ρ ε) : Slot ρ ε × List (SlotEffect ρ ε) :=
  let (settled, more) := (slot.step event).1.settle
  (settled, (slot.step event).2 ++ more)

def isIdle (slot : Slot ρ ε) : Bool := slot.turn.isNone && slot.waiting.isEmpty

end Slot

def answersOf (effects : List (SlotEffect ρ ε)) : List (Answer ρ ε) :=
  effects.filterMap fun effect =>
    match effect with
    | .answer _ answer => some answer
    | _ => none

end Stencil
