import Stencil.Proofs.View.Moves

/-! What holds of a slot after any events.

The turn, the guard and the compile in flight hang together in one way at every point where a request waits,
and the effects so far tell which compiles were started and collected.
-/

set_option autoImplicit false

namespace Stencil

variable {ρ ε : Type}

namespace Slot

def Yielded (slot : Slot ρ ε) (task : Nat) (result : Except ε ρ) : Prop :=
  ∃ ending : Ending ρ ε, slot.tasks[task]? = some (.ended ending) ∧ ending.result = result

theorem Yielded.land {slot : Slot ρ ε} {task other : Nat} {result : Except ε ρ} (ending : Ending ρ ε)
    (running : slot.tasks[task]? = some .running) (yielded : slot.Yielded other result) :
    { slot with tasks := slot.tasks.set task (.ended ending) }.Yielded other result := by
  obtain ⟨landed, ended, same⟩ := yielded
  refine ⟨landed, ?_, same⟩
  rw [List.getElem?_set_ne]
  · exact ended
  · intro same
    subst same
    rw [running] at ended
    cases ended

theorem Yielded.launch {slot next : Slot ρ ε} {task : Nat} {result : Except ε ρ}
    (tasks : next.tasks = slot.tasks ++ [CompileTask.running]) (yielded : slot.Yielded task result) :
    next.Yielded task result := by
  obtain ⟨ending, ended, same⟩ := yielded
  refine ⟨ending, ?_, same⟩
  rw [tasks, List.getElem?_append_left (List.getElem?_eq_some_iff.mp ended).1]
  exact ended

structure Sound (slot : Slot ρ ε) : Prop where
  /-- Nobody has the turn once a routine is stored. -/
  unstored : ∀ turn, slot.turn = some turn → slot.stored = none
  /-- No compile is in flight once a routine is stored. -/
  unfinished : ∀ task, slot.inFlight = some task → slot.stored = none
  guarded : ∀ request, slot.guard = some request ↔ slot.turn = some (request, .joining)
  joining : ∀ request, slot.turn = some (request, .joining) → slot.inFlight.isSome
  concluding : ∀ request result, slot.turn = some (request, .concluding result) →
    slot.inFlight = none ∧ ∃ task, slot.Yielded task result
  success : ∀ routine, slot.stored = some routine → ∃ task, slot.Yielded task (.ok routine)
  /-- Only the compile in flight can be running. -/
  running : ∀ task, slot.tasks[task]? = some .running → slot.inFlight = some task
  started : ∀ task, slot.inFlight = some task → task < slot.tasks.length

theorem empty_sound : (empty : Slot ρ ε).Sound := by
  constructor <;> simp [empty]

theorem Sound.requeue {slot : Slot ρ ε} (sound : slot.Sound) (waiting : List Nat) :
    { slot with waiting }.Sound := by
  constructor
  · exact sound.unstored
  · exact sound.unfinished
  · exact sound.guarded
  · exact sound.joining
  · exact sound.concluding
  · exact sound.success
  · exact sound.running
  · exact sound.started

theorem Sound.guard_eq_none {slot : Slot ρ ε} (sound : slot.Sound)
    (free : ∀ request, slot.turn ≠ some (request, .joining)) : slot.guard = none := by
  cases found : slot.guard with
  | none => rfl
  | some holder => exact absurd ((sound.guarded holder).mp found) (free holder)

theorem Sound.released {slot : Slot ρ ε} (sound : slot.Sound) {request : Nat} {phase : Phase ρ ε}
    (turn : slot.turn = some (request, phase)) : slot.guard.filter (· ≠ request) = none := by
  cases found : slot.guard with
  | none => rfl
  | some holder =>
    have held := (sound.guarded holder).mp found
    rw [turn] at held
    cases held
    simp

theorem Sound.dismiss {slot : Slot ρ ε} (sound : slot.Sound) {request : Nat} {phase : Phase ρ ε}
    (turn : slot.turn = some (request, phase)) : (slot.dismiss request).Sound := by
  have released := sound.released turn
  constructor
  · intro turn none
    cases none
  · exact sound.unfinished
  · intro holder
    simp only [Slot.dismiss, released]
    simp
  · intro holder held
    cases held
  · intro holder result held
    cases held
  · exact sound.success
  · exact sound.running
  · exact sound.started

theorem Sound.grant {slot : Slot ρ ε} (sound : slot.Sound) (request : Nat) (waiting : List Nat)
    (open_ : slot.stored = none) (free : slot.turn = none) :
    { slot with turn := some (request, .locking), waiting }.Sound := by
  have released : slot.guard = none := sound.guard_eq_none (by simp [free])
  constructor
  · intro _ _
    exact open_
  · exact sound.unfinished
  · intro holder
    simp [released]
  · simp
  · simp
  · exact sound.success
  · exact sound.running
  · exact sound.started

theorem Sound.join {slot : Slot ρ ε} (sound : slot.Sound) {request task : Nat}
    (turn : slot.turn = some (request, .locking)) (flight : slot.inFlight = some task) :
    { slot with turn := some (request, .joining), guard := some request }.Sound := by
  constructor
  · intro _ _
    exact sound.unstored _ turn
  · exact sound.unfinished
  · intro holder
    simp
  · intro holder held
    simp [flight]
  · simp
  · exact sound.success
  · exact sound.running
  · exact sound.started

theorem Sound.launch {slot : Slot ρ ε} (sound : slot.Sound) {request : Nat}
    (turn : slot.turn = some (request, .locking)) (flight : slot.inFlight = none) :
    { slot with
      turn := some (request, .joining)
      guard := some request
      tasks := slot.tasks ++ [CompileTask.running]
      inFlight := some slot.tasks.length }.Sound := by
  constructor
  · intro _ _
    exact sound.unstored _ turn
  · intro _ _
    exact sound.unstored _ turn
  · intro holder
    simp
  · simp
  · simp
  · intro routine stored
    obtain ⟨task, yielded⟩ := sound.success routine stored
    exact ⟨task, yielded.launch rfl⟩
  · intro task running
    -- An earlier compile that still runs would be in flight.
    by_cases old : task < slot.tasks.length
    · rw [List.getElem?_append_left old] at running
      have := sound.running task running
      rw [flight] at this
      cases this
    · have bound := (List.getElem?_eq_some_iff.mp running).1
      simp at bound ⊢
      omega
  · simp

theorem Sound.collect {slot : Slot ρ ε} (sound : slot.Sound) {request task : Nat} {ending : Ending ρ ε}
    (turn : slot.turn = some (request, .joining)) (flight : slot.inFlight = some task)
    (ended : slot.tasks[task]? = some (.ended ending)) :
    { slot with
      turn := some (request, .concluding ending.result)
      guard := slot.guard.filter (· ≠ request)
      inFlight := none }.Sound := by
  have released := sound.released turn
  constructor
  · intro _ _
    exact sound.unstored _ turn
  · intro other none
    cases none
  · intro holder
    simp only [released]
    simp
  · simp
  · intro holder result held
    cases held
    exact ⟨rfl, task, ending, ended, rfl⟩
  · exact sound.success
  · intro other running
    -- Only the compile that is collected could run, and it has ended.
    have := sound.running other running
    rw [flight] at this
    cases this
    rw [ended] at running
    cases running
  · simp

theorem Sound.store {slot : Slot ρ ε} (sound : slot.Sound) {request : Nat} {routine : ρ}
    (turn : slot.turn = some (request, .concluding (.ok routine))) :
    { slot with stored := some routine, turn := none }.Sound := by
  obtain ⟨flight, landed⟩ := sound.concluding request (.ok routine) turn
  have released : slot.guard = none := sound.guard_eq_none (by simp [turn])
  constructor
  · intro other none
    cases none
  · intro task found
    rw [flight] at found
    cases found
  · intro holder
    simp [released]
  · simp
  · simp
  · intro other stored
    cases stored
    exact landed
  · exact sound.running
  · exact sound.started

theorem Sound.fail {slot : Slot ρ ε} (sound : slot.Sound) {request : Nat} {error : ε}
    (turn : slot.turn = some (request, .concluding (.error error))) :
    { slot with turn := none }.Sound := by
  have released : slot.guard = none := sound.guard_eq_none (by simp [turn])
  constructor
  · intro turn none
    cases none
  · exact sound.unfinished
  · intro holder
    simp [released]
  · simp
  · simp
  · exact sound.success
  · exact sound.running
  · exact sound.started

theorem Sound.land {slot : Slot ρ ε} (sound : slot.Sound) {task : Nat} (ending : Ending ρ ε)
    (running : slot.tasks[task]? = some .running) :
    { slot with tasks := slot.tasks.set task (.ended ending) }.Sound := by
  constructor
  · exact sound.unstored
  · exact sound.unfinished
  · exact sound.guarded
  · exact sound.joining
  · intro request result turn
    obtain ⟨flight, other, yielded⟩ := sound.concluding request result turn
    exact ⟨flight, other, yielded.land ending running⟩
  · intro routine stored
    obtain ⟨other, yielded⟩ := sound.success routine stored
    exact ⟨other, yielded.land ending running⟩
  · intro other still
    apply sound.running
    by_cases same : task = other
    · subst same
      exact running
    · rwa [List.getElem?_set_ne same] at still
  · intro other flight
    rw [List.length_set]
    exact sound.started other flight

theorem turn_of_isHeldBy {slot : Slot ρ ε} {request : Nat} (held : slot.isHeldBy request) :
    ∃ phase, slot.turn = some (request, phase) := by
  unfold isHeldBy at held
  split at held
  · cases held
  · rename_i holder phase _ turn
    have same := of_decide_eq_true held
    subst same
    exact ⟨phase, turn⟩
  · cases held

theorem Sound.move {slot next : Slot ρ ε} {effects : List (SlotEffect ρ ε)} (sound : slot.Sound)
    (move : Move slot next effects) : next.Sound := by
  cases move with
  | stay => exact sound
  | serve => exact sound
  | enqueue => exact sound.requeue _
  | wake => exact sound.requeue _
  | grant request open_ free => exact sound.grant request _ open_ free
  | join request task turn flight => exact sound.join turn flight
  | launch request turn flight => exact sound.launch turn flight
  | collect request task ending turn flight ended => exact sound.collect turn flight ended
  | store request routine turn => exact sound.store turn
  | fail request error turn => exact sound.fail turn
  | abandon request held =>
    obtain ⟨phase, turn⟩ := turn_of_isHeldBy held
    exact sound.dismiss turn
  | dequeue => exact sound.requeue _
  | expire request turn => exact sound.dismiss turn
  | land task ending running => exact sound.land ending running

end Slot

end Stencil
