import Stencil.View.Slot

/-! All that one event can do to a slot.

`Slot.step` looks at the event and at the state before it decides. A move lists its outcomes with the guards
that led to them, so that a law of every step is proved by one case for each move.
-/

set_option autoImplicit false

namespace Stencil

variable {ρ ε : Type}

namespace Slot

/-- The outcomes of a step, with what it does. -/
inductive Move : Slot ρ ε → Slot ρ ε → List (SlotEffect ρ ε) → Prop where
  | stay (slot : Slot ρ ε) : Move slot slot []
  | serve (slot : Slot ρ ε) (request : Nat) (routine : ρ) (stored : slot.stored = some routine) :
      Move slot slot [.answer request (.ready routine)]
  | enqueue (slot : Slot ρ ε) (request : Nat) :
      Move slot { slot with waiting := slot.waiting ++ [request] } []
  | wake (slot : Slot ρ ε) (request : Nat) (routine : ρ) (stored : slot.stored = some routine) :
      Move slot { slot with waiting := slot.waiting.erase request } [.answer request (.ready routine)]
  | grant (slot : Slot ρ ε) (request : Nat) (open_ : slot.stored = none) (free : slot.turn = none) :
      Move slot { slot with turn := some (request, .locking), waiting := slot.waiting.erase request } []
  | join (slot : Slot ρ ε) (request task : Nat) (turn : slot.turn = some (request, .locking))
      (flight : slot.inFlight = some task) :
      Move slot { slot with turn := some (request, .joining), guard := some request } [.join task]
  | launch (slot : Slot ρ ε) (request : Nat) (turn : slot.turn = some (request, .locking))
      (flight : slot.inFlight = none) :
      Move slot
        { slot with
          turn := some (request, .joining)
          guard := some request
          tasks := slot.tasks ++ [.running]
          inFlight := some slot.tasks.length }
        [.launch slot.tasks.length]
  | collect (slot : Slot ρ ε) (request task : Nat) (ending : Ending ρ ε)
      (turn : slot.turn = some (request, .joining)) (flight : slot.inFlight = some task)
      (ended : slot.tasks[task]? = some (.ended ending)) :
      Move slot
        { slot with
          turn := some (request, .concluding ending.result)
          guard := slot.guard.filter (· ≠ request)
          inFlight := none }
        [.collect task]
  | store (slot : Slot ρ ε) (request : Nat) (routine : ρ)
      (turn : slot.turn = some (request, .concluding (.ok routine))) :
      Move slot { slot with stored := some routine, turn := none } [.answer request (.ready routine)]
  | fail (slot : Slot ρ ε) (request : Nat) (error : ε)
      (turn : slot.turn = some (request, .concluding (.error error))) :
      Move slot { slot with turn := none } [.answer request (.failed error)]
  | abandon (slot : Slot ρ ε) (request : Nat) (held : slot.isHeldBy request) :
      Move slot (slot.dismiss request) []
  | dequeue (slot : Slot ρ ε) (request : Nat) :
      Move slot { slot with waiting := slot.waiting.erase request } []
  | expire (slot : Slot ρ ε) (request : Nat) (turn : slot.turn = some (request, .joining)) :
      Move slot (slot.dismiss request) [.answer request .timedOut]
  | land (slot : Slot ρ ε) (task : Nat) (ending : Ending ρ ε)
      (running : slot.tasks[task]? = some .running) :
      Move slot { slot with tasks := slot.tasks.set task (.ended ending) } []

theorem landed?_eq_some {slot : Slot ρ ε} {task : Nat} {ending : Ending ρ ε}
    (h : slot.landed? = some (task, ending)) :
    slot.inFlight = some task ∧ slot.tasks[task]? = some (.ended ending) := by
  unfold landed? at h
  split at h
  · cases h
  · split at h <;> cases h
    constructor <;> assumption

theorem arrive_move (slot : Slot ρ ε) (request : Nat) :
    Move slot (slot.arrive request).1 (slot.arrive request).2 := by
  unfold arrive
  split
  · apply Move.serve
    assumption
  · apply Move.enqueue

theorem wake_move (slot : Slot ρ ε) (request : Nat) :
    Move slot (slot.wake request).1 (slot.wake request).2 := by
  unfold wake
  split
  · split
    · apply Move.wake
      assumption
    · apply Move.stay
  · apply Move.stay

theorem grant_move (slot : Slot ρ ε) (request : Nat) :
    Move slot (slot.grant request).1 (slot.grant request).2 := by
  unfold grant
  split
  · rename_i h
    apply Move.grant
    · exact Option.isNone_iff_eq_none.mp h.1
    · exact Option.isNone_iff_eq_none.mp h.2.1
  · apply Move.stay

theorem lock_move (slot : Slot ρ ε) : Move slot slot.lock.1 slot.lock.2 := by
  unfold lock
  split
  · dsimp only
    split
    · apply Move.join <;> assumption
    · apply Move.launch <;> assumption
  · apply Move.stay

theorem collect_move (slot : Slot ρ ε) : Move slot slot.collect.1 slot.collect.2 := by
  unfold collect
  split
  · rename_i turn landed
    obtain ⟨flight, ended⟩ := landed?_eq_some landed
    apply Move.collect <;> assumption
  · apply Move.stay

theorem conclude_move (slot : Slot ρ ε) : Move slot slot.conclude.1 slot.conclude.2 := by
  unfold conclude
  split
  · apply Move.store
    assumption
  · apply Move.fail
    assumption
  · apply Move.stay

theorem leave_move (slot : Slot ρ ε) (request : Nat) : Move slot (slot.leave request) [] := by
  unfold leave
  split
  · apply Move.abandon
    assumption
  · apply Move.dequeue

theorem expire_move (slot : Slot ρ ε) (request : Nat) :
    Move slot (slot.expire request).1 (slot.expire request).2 := by
  unfold expire
  split
  · rename_i holder turn
    split
    · rename_i same
      subst same
      exact .expire slot holder turn
    · apply Move.stay
  · apply Move.stay

theorem land_move (slot : Slot ρ ε) (task : Nat) (ending : Ending ρ ε) :
    Move slot (slot.land task ending) [] := by
  unfold land
  split
  · apply Move.land
    assumption
  · apply Move.stay

theorem step_move (slot : Slot ρ ε) (event : SlotEvent ρ ε) :
    Move slot (slot.step event).1 (slot.step event).2 := by
  cases event with
  | arrive request => exact slot.arrive_move request
  | wake request => exact slot.wake_move request
  | grant request => exact slot.grant_move request
  | lock => exact slot.lock_move
  | collect => exact slot.collect_move
  | conclude => exact slot.conclude_move
  | leave request => exact slot.leave_move request
  | expire request => exact slot.expire_move request
  | land task ending => exact slot.land_move task ending

end Slot

end Stencil
