import Stencil.Proofs.View.Sound
import Stencil.View.Basic

/-! The cache of a view under any order of events.

Requests, their ends and the ends of compiles may follow each other in any order, for any types of model. What
the cache promises is read off the invariant and the effects so far, first for one slot and then for a view,
where the slot of a type sees the events of its type alone.
-/

set_option autoImplicit false

namespace Stencil

section

variable {ρ ε : Type}

namespace Slot

structure Recorded (slot : Slot ρ ε) (log : List (SlotEffect ρ ε)) : Prop where
  settled : ∀ task, .launch task ∈ log → slot.inFlight = some task ∨ .collect task ∈ log
  ready : ∀ request routine, .answer request (.ready routine) ∈ log → slot.stored = some routine

theorem Sound.stored_move {slot next : Slot ρ ε} {effects : List (SlotEffect ρ ε)} (sound : slot.Sound)
    (move : Move slot next effects) {routine : ρ} (stored : slot.stored = some routine) :
    next.stored = some routine := by
  cases move with
  | store request other turn =>
    -- The turn is nobody's once something is stored.
    rw [sound.unstored _ turn] at stored
    cases stored
  | _ => exact stored

theorem ready_move {slot next : Slot ρ ε} {effects : List (SlotEffect ρ ε)}
    (move : Move slot next effects) {request : Nat} {routine : ρ}
    (ready : .answer request (.ready routine) ∈ effects) : next.stored = some routine := by
  cases move with
  | serve other found stored =>
    cases List.mem_singleton.mp ready
    exact stored
  | wake other found stored =>
    cases List.mem_singleton.mp ready
    exact stored
  | store other found turn =>
    cases List.mem_singleton.mp ready
    rfl
  | _ => simp at ready

/-- A compile in flight stays so, with no other one started, until it is collected. -/
theorem flight_move {slot next : Slot ρ ε} {effects : List (SlotEffect ρ ε)}
    (move : Move slot next effects) {task : Nat} (flight : slot.inFlight = some task) :
    next.inFlight = some task ∧ (∀ other, .launch other ∉ effects) ∨ .collect task ∈ effects := by
  cases move with
  | launch request turn none =>
    rw [flight] at none
    cases none
  | collect request other ending turn found ended =>
    rw [flight] at found
    cases found
    exact .inr (List.mem_singleton.mpr rfl)
  | _ => exact .inl ⟨flight, by simp⟩

theorem Sound.launch_move {slot next : Slot ρ ε} {effects : List (SlotEffect ρ ε)} (sound : slot.Sound)
    (move : Move slot next effects) {task : Nat} (launch : .launch task ∈ effects) :
    slot.stored = none ∧ slot.inFlight = none ∧ next.inFlight = some task := by
  cases move with
  | launch request turn flight =>
    cases List.mem_singleton.mp launch
    exact ⟨sound.unstored _ turn, flight, rfl⟩
  | _ => simp at launch

theorem Recorded.move {slot next : Slot ρ ε} {log effects : List (SlotEffect ρ ε)}
    (recorded : slot.Recorded log) (sound : slot.Sound) (move : Move slot next effects) :
    next.Recorded (log ++ effects) := by
  constructor
  · intro task launch
    rcases List.mem_append.mp launch with earlier | now
    · -- A compile in flight stays so unless this very move collects it.
      rcases recorded.settled task earlier with flight | collected
      · rcases flight_move move flight with ⟨kept, _⟩ | collected
        · exact .inl kept
        · exact .inr (List.mem_append_right log collected)
      · exact .inr (List.mem_append_left effects collected)
    · exact .inl (sound.launch_move move now).2.2
  · intro request routine ready
    rcases List.mem_append.mp ready with earlier | now
    · exact sound.stored_move move (recorded.ready request routine earlier)
    · exact ready_move move now

theorem Sound.run {slot : Slot ρ ε} (sound : slot.Sound) (events : List (SlotEvent ρ ε)) :
    (slot.run events).1.Sound := by
  induction events generalizing slot with
  | nil => exact sound
  | cons event rest ih => exact ih (sound.move (slot.step_move event))

theorem Recorded.run {slot : Slot ρ ε} {log : List (SlotEffect ρ ε)} (recorded : slot.Recorded log)
    (sound : slot.Sound) (events : List (SlotEvent ρ ε)) :
    (slot.run events).1.Recorded (log ++ (slot.run events).2) := by
  induction events generalizing slot log with
  | nil => simpa only [Slot.run, List.append_nil] using recorded
  | cons event rest ih =>
    have move := slot.step_move event
    simpa only [Slot.run, List.append_assoc] using ih (recorded.move sound move) (sound.move move)

theorem flight_run {slot : Slot ρ ε} {task : Nat} (flight : slot.inFlight = some task)
    (events : List (SlotEvent ρ ε)) (kept : .collect task ∉ (slot.run events).2) :
    (slot.run events).1.inFlight = some task ∧ ∀ other, .launch other ∉ (slot.run events).2 := by
  induction events generalizing slot with
  | nil => exact ⟨flight, by simp [Slot.run]⟩
  | cons event rest ih =>
    simp only [Slot.run, List.mem_append, not_or] at kept ⊢
    rcases flight_move (slot.step_move event) flight with ⟨still, quiet⟩ | collected
    · obtain ⟨still, later⟩ := ih still kept.2
      exact ⟨still, fun other => ⟨quiet other, later other⟩⟩
    · exact absurd collected kept.1

structure Safe (slot : Slot ρ ε) (log : List (SlotEffect ρ ε)) : Prop where
  /-- At most one compile runs. -/
  one_runs : ∀ task other : Nat, slot.tasks[task]? = some .running → slot.tasks[other]? = some .running →
    task = other
  /-- A compile is started only with nothing stored and the outcomes of all earlier ones collected. -/
  launch : ∀ event task, .launch task ∈ (slot.step event).2 →
    slot.stored = none ∧ slot.inFlight = none ∧
      (∀ earlier : Nat, slot.tasks[earlier]? ≠ some .running) ∧
      ∀ earlier, .launch earlier ∈ log → .collect earlier ∈ log
  /-- Only the success of a compile is stored. -/
  success : ∀ routine, slot.stored = some routine → ∃ task, slot.Yielded task (.ok routine)
  /-- What is stored stays. -/
  stored : ∀ routine events, slot.stored = some routine → (slot.run events).1.stored = some routine
  /-- Every request that got a routine got the one that is stored. -/
  ready : ∀ request routine, .answer request (.ready routine) ∈ log → slot.stored = some routine
  /-- A compile in flight stays so until it is collected, and until then no other one is started. -/
  flight : ∀ task events, slot.inFlight = some task → .collect task ∉ (slot.run events).2 →
    (slot.run events).1.inFlight = some task ∧ ∀ other, .launch other ∉ (slot.run events).2
  /-- A request in the queue can get the turn while a compile is in flight that nobody waits for. -/
  grant : ∀ request task, slot.inFlight = some task → slot.turn = none → request ∈ slot.waiting →
    (slot.step (.grant request)).1.turn = some (request, .locking)
  /-- A request with the turn joins the compile in flight. -/
  join : ∀ request task, slot.inFlight = some task → slot.turn = some (request, .locking) →
    slot.step .lock =
      ({ slot with turn := some (request, .joining), guard := some request }, [.join task])
  /-- A request that has joined gets the outcome of the compile once it has ended. -/
  outcome : ∀ request task result, slot.inFlight = some task → slot.turn = some (request, .joining) →
    slot.Yielded task result →
    (slot.run [.collect, .conclude]).2 = [.collect task, .answer request (.ofResult result)]

theorem Sound.stored_run {slot : Slot ρ ε} (sound : slot.Sound) {routine : ρ}
    (stored : slot.stored = some routine) (events : List (SlotEvent ρ ε)) :
    (slot.run events).1.stored = some routine := by
  induction events generalizing slot with
  | nil => exact stored
  | cons event rest ih =>
    have move := slot.step_move event
    exact ih (sound.move move) (sound.stored_move move stored)

theorem Sound.step_lock {slot : Slot ρ ε} (sound : slot.Sound) {request task : Nat}
    (flight : slot.inFlight = some task) (turn : slot.turn = some (request, .locking)) :
    slot.step .lock =
      ({ slot with turn := some (request, .joining), guard := some request }, [.join task]) := by
  have free : slot.guard = none := sound.guard_eq_none (by simp [turn])
  simp only [step, lock, turn, free, flight]

theorem run_outcome {slot : Slot ρ ε} {request task : Nat} {result : Except ε ρ}
    (flight : slot.inFlight = some task) (turn : slot.turn = some (request, .joining))
    (yielded : slot.Yielded task result) :
    (slot.run [.collect, .conclude]).2 = [.collect task, .answer request (.ofResult result)] := by
  obtain ⟨ending, ended, rfl⟩ := yielded
  have landed : slot.landed? = some (task, ending) := by
    simp only [landed?, flight, ended]
  simp only [run, step, collect, turn, landed, conclude]
  cases ending.result <;> rfl

theorem Sound.safe {slot : Slot ρ ε} {log : List (SlotEffect ρ ε)} (sound : slot.Sound)
    (recorded : slot.Recorded log) : slot.Safe log := by
  constructor
  · intro task other first second
    have same := (sound.running task first).symm.trans (sound.running other second)
    exact Option.some.inj same
  · -- With no compile in flight, none runs and the outcome of each has been collected.
    intro event task launch
    obtain ⟨open_, none, _⟩ := sound.launch_move (slot.step_move event) launch
    refine ⟨open_, none, ?_, ?_⟩
    · intro earlier running
      have flight := sound.running earlier running
      rw [none] at flight
      cases flight
    · intro earlier started
      rcases recorded.settled earlier started with flight | collected
      · rw [none] at flight
        cases flight
      · exact collected
  · exact sound.success
  · intro routine events stored
    exact sound.stored_run stored events
  · exact recorded.ready
  · intro task events flight kept
    exact flight_run flight events kept
  · intro request task flight free queued
    simp [step, Slot.grant, sound.unfinished task flight, free, queued]
  · intro request task flight turn
    exact sound.step_lock flight turn
  · intro request task result flight turn yielded
    exact run_outcome flight turn yielded

theorem empty_recorded : (empty : Slot ρ ε).Recorded [] := by
  constructor <;> simp

theorem run_safe (events : List (SlotEvent ρ ε)) :
    ((empty : Slot ρ ε).run events).1.Safe (empty.run events).2 :=
  (empty_sound.run events).safe (by simpa using empty_recorded.run empty_sound events)

-- A request runs out of time, and the next one joins the compile that it has left behind.
example :
    ((empty : Slot Nat String).run
      [.arrive 1, .grant 1, .lock, .expire 1, .arrive 2, .land 0 (.returned (.ok 7)), .grant 2, .lock,
        .collect, .conclude]).2 =
      [.launch 0, .answer 1 .timedOut, .join 0, .collect 0, .answer 2 (.ready 7)] := rfl

end Slot

end

namespace View

variable {α : Type}

/-- The part of a sequence about several types of model that concerns one of them. -/
def concerning (modelType : String) (entries : List (String × α)) : List α :=
  entries.filterMap fun entry => if entry.1 = modelType then some entry.2 else none

theorem concerning_append (modelType : String) (first second : List (String × α)) :
    concerning modelType (first ++ second) = concerning modelType first ++ concerning modelType second :=
  List.filterMap_append

theorem concerning_cons_same (modelType : String) (entry : α) (rest : List (String × α)) :
    concerning modelType ((modelType, entry) :: rest) = entry :: concerning modelType rest := by
  simp [concerning]

theorem concerning_cons_other {modelType other : String} (h : other ≠ modelType) (entry : α)
    (rest : List (String × α)) :
    concerning modelType ((other, entry) :: rest) = concerning modelType rest := by
  simp [concerning, h]

theorem concerning_map_same (modelType : String) (entries : List α) :
    concerning modelType (entries.map (Prod.mk modelType)) = entries := by
  induction entries with
  | nil => rfl
  | cons entry rest ih => rw [List.map_cons, concerning_cons_same, ih]

theorem concerning_map_other {modelType other : String} (h : other ≠ modelType) (entries : List α) :
    concerning modelType (entries.map (Prod.mk other)) = [] := by
  induction entries with
  | nil => rfl
  | cons entry rest ih => rw [List.map_cons, concerning_cons_other h, ih]

theorem slot_setSlot_same (view : View) (modelType : String) (slot : Slot Renderer CompileError) :
    (view.setSlot modelType slot).slot modelType = slot := by
  simp [View.slot, setSlot]

theorem slot_setSlot_other (view : View) {modelType other : String} (h : other ≠ modelType)
    (slot : Slot Renderer CompileError) : (view.setSlot modelType slot).slot other = view.slot other := by
  have skip : ∀ entries : List (String × Slot Renderer CompileError),
      (entries.filter fun entry => entry.1 ≠ modelType).lookup other = entries.lookup other := by
    intro entries
    induction entries with
    | nil => rfl
    | cons entry rest ih =>
      obtain ⟨key, value⟩ := entry
      by_cases same : key = modelType
      · subst same
        rw [List.filter_cons_of_neg (by simp), ih, List.lookup_cons, beq_false_of_ne h]
      · rw [List.filter_cons_of_pos (by simpa using same), List.lookup_cons, List.lookup_cons, ih]
  simp only [View.slot, setSlot, List.lookup_cons, beq_false_of_ne h, skip]

/-- The slot of a type of model runs on the events of its type. -/
theorem run_slot (view : View) (events : List (String × SlotEvent Renderer CompileError))
    (modelType : String) :
    ((view.run events).1.slot modelType, concerning modelType (view.run events).2) =
      (view.slot modelType).run (concerning modelType events) := by
  induction events generalizing view with
  | nil => rfl
  | cons event rest ih =>
    obtain ⟨key, event⟩ := event
    have later := ih (view.step key event).1
    simp only [Prod.ext_iff] at later ⊢
    simp only [View.run, concerning_append, later.1, later.2]
    by_cases same : key = modelType
    · subst same
      rw [concerning_map_same, concerning_cons_same]
      simp only [View.step, slot_setSlot_same, Slot.run]
      trivial
    · -- An event of another type neither moves the slot nor is one of its events.
      rw [concerning_map_other same, concerning_cons_other same]
      simp only [View.step, slot_setSlot_other view (Ne.symm same), List.nil_append]
      trivial

/-- The slots of a view are safe after any events of any types of model. -/
theorem cache_safe (context : Context) (store : Store) (options : Options)
    (events : List (String × SlotEvent Renderer CompileError)) (modelType : String) :
    let outcome := (ofContext context store options).run events
    (outcome.1.slot modelType).Safe (concerning modelType outcome.2) := by
  intro outcome
  -- The slot of a type sees the events of its type alone, so that the law of a single slot is enough.
  have slot : (outcome.1.slot modelType, concerning modelType outcome.2) =
      Slot.empty.run (concerning modelType events) :=
    run_slot (ofContext context store options) events modelType
  have safe := Slot.run_safe (concerning modelType events)
  rw [← slot] at safe
  exact safe

end View

end Stencil
