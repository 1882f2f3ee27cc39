import Stencil.Backend.Interpreter
import Stencil.Proofs.View.Site

/-! Types of model do not disturb each other.

What a type has at a site is what its tally has, and the tally sees the events of its type alone. So far two runs are
alike that have these events in common. What requests are told is known as well, since a compile ends as it would with
no other beside it.
-/

set_option autoImplicit false

namespace Stencil

namespace Slot

variable {ρ ε : Type} {P : Except ε ρ → Prop} {slot next : Slot ρ ε}

structure Bears (P : Except ε ρ → Prop) (slot : Slot ρ ε) : Prop where
  stored : ∀ routine, slot.stored = some routine → P (.ok routine)
  ended : ∀ (task : Nat) ending, slot.tasks[task]? = some (.ended ending) → P ending.result
  concluding : ∀ request result, slot.turn = some (request, .concluding result) → P result

def Tell (P : Except ε ρ → Prop) (effects : List (SlotEffect ρ ε)) : Prop :=
  ∀ request answer, .answer request answer ∈ effects →
    answer = .timedOut ∨ ∃ result, P result ∧ answer = .ofResult result

theorem bears_empty : (empty : Slot ρ ε).Bears P := by
  constructor <;> simp [empty]

theorem Bears.move (bears : slot.Bears P) {effects : List (SlotEffect ρ ε)} (move : Move slot next effects)
    (ended : ∀ (task : Nat) ending, next.tasks[task]? = some (.ended ending) → P ending.result) :
    next.Bears P ∧ Tell P effects := by
  -- A result is collected from a compile that has ended; every other move leaves the results alone.
  refine ⟨⟨fun routine stored => ?_, ended, fun request result turn => ?_⟩, fun request answer told => ?_⟩
  · cases move with
    | store other same found =>
      cases stored
      exact bears.concluding _ _ found
    | _ => exact bears.stored routine stored
  · cases move with
    | collect other task ending found flight done =>
      cases turn
      exact bears.ended task ending done
    | grant | join | launch | store | fail | abandon | expire => cases turn
    | _ => exact bears.concluding request result turn
  · cases move with
    | serve other routine stored | wake other routine stored =>
      cases List.mem_singleton.mp told
      exact .inr ⟨.ok routine, bears.stored routine stored, rfl⟩
    | store other routine found =>
      cases List.mem_singleton.mp told
      exact .inr ⟨.ok routine, bears.concluding _ _ found, rfl⟩
    | fail other error found =>
      cases List.mem_singleton.mp told
      exact .inr ⟨.error error, bears.concluding _ _ found, rfl⟩
    | expire other found =>
      cases List.mem_singleton.mp told
      exact .inl rfl
    | _ => simp at told

theorem tasks_step (slot : Slot ρ ε) {event : SlotEvent ρ ε} (own : event.isLanding = false) :
    (slot.step event).1.tasks = slot.tasks ∨ (slot.step event).1.tasks = slot.tasks ++ [.running] := by
  cases event with
  | land task ending => cases own
  | lock =>
    simp only [step, lock]
    split
    · split
      · exact .inl rfl
      · exact .inr rfl
    · exact .inl rfl
  | arrive request | wake request | grant request | collect | conclude | leave request | expire request =>
    left
    simp only [step, arrive, wake, grant, collect, conclude, leave, expire]
    repeat' split
    all_goals rfl

theorem ended_land {at_ task : Nat} {ending other : Ending ρ ε}
    (ended : (slot.step (.land at_ ending)).1.tasks[task]? = some (.ended other)) :
    slot.tasks[task]? = some (.ended other) ∨ other = ending := by
  simp only [step, land] at ended
  split at ended
  · rw [List.getElem?_set] at ended
    split at ended
    · split at ended <;> cases ended
      exact .inr rfl
    · exact .inl ended
  · exact .inl ended

theorem Bears.land (bears : slot.Bears P) (task : Nat) {ending : Ending ρ ε} (fits : P ending.result) :
    (slot.step (.land task ending)).1.Bears P ∧ Tell P (slot.step (.land task ending)).2 := by
  refine bears.move (slot.step_move _) fun other ended found => ?_
  rcases ended_land found with before | rfl
  · exact bears.ended other ended before
  · exact fits

theorem Bears.request (bears : slot.Bears P) {event : SlotEvent ρ ε} (own : event.isLanding = false) :
    (slot.step event).1.Bears P ∧ Tell P (slot.step event).2 := by
  refine bears.move (slot.step_move _) fun task ending found => bears.ended task ending ?_
  rcases tasks_step slot own with same | started
  · rwa [same] at found
  · rw [started, List.getElem?_append] at found
    split at found
    · exact found
    · rw [List.getElem?_singleton] at found
      split at found <;> cases found

end Slot

namespace Tally

variable {P : Except CompileError Renderer → Prop} {ending? : Nat → Option (Ending Renderer CompileError)}

theorem bears_step (compiles : ∀ n ending, ending? n = some ending → P ending.result) {tally : Tally}
    (bears : tally.slot.Bears P) (event : SiteEvent)
    (crashes : ∀ task error, event = .crash task error → P (.error error)) :
    (tally.step ending? event).1.slot.Bears P ∧ Slot.Tell P (tally.step ending? event).2 := by
  have still : tally.slot.Bears P ∧ Slot.Tell P [] := ⟨bears, by simp [Slot.Tell]⟩
  cases event with
  | request event => exact bears.request event.2
  | work task =>
    simp only [Tally.step]
    split
    · exact still
    · split
      · rename_i ending ends
        exact bears.land task (compiles _ ending ends)
      · exact still
  | crash task error =>
    simp only [Tally.step]
    split
    · exact still
    · exact bears.land task (crashes task error rfl)

theorem bears_run (compiles : ∀ n ending, ending? n = some ending → P ending.result) {tally : Tally}
    (bears : tally.slot.Bears P) (events : List SiteEvent)
    (crashes : ∀ task error, .crash task error ∈ events → P (.error error)) :
    Slot.Tell P (tally.run ending? events).2 := by
  induction events generalizing tally with
  | nil => simp [Tally.run, Slot.Tell]
  | cons event rest ih =>
    obtain ⟨stepped, told⟩ := bears_step compiles bears event fun task error same =>
      crashes task error (same ▸ List.mem_cons_self)
    intro request answer member
    rcases List.mem_append.mp member with now | later
    · exact told request answer now
    · have others (task : Nat) (error : CompileError) (member : .crash task error ∈ rest) : P (.error error) :=
        crashes task error (List.mem_cons_of_mem _ member)
      exact ih stepped others request answer later

end Tally

/-- A compile that ends by itself ends with what a compile gives that has no others beside it. -/
theorem View.endingAt?_eq {begun : View} {backend : Backend} {modelType : String} {n : Nat}
    {ending : Ending Renderer CompileError} (ends : begun.endingAt? backend modelType n = some ending) :
    ending = .returned
      (compileView begun.context begun.store backend begun.options modelType begun.memo).1 := by
  unfold View.endingAt? at ends
  cases reached : begun.course modelType n with
  | underway u =>
    rw [reached] at ends
    cases ends
  | ended result =>
    rw [reached] at ends
    cases ends
    simp only [compileView, Walk.walk_of_course reached]
    cases result.bind WalkState.finish <;> rfl

/-- Every compile ends once it has taken enough steps. -/
theorem View.exists_endingAt? (begun : View) (backend : Backend) (modelType : String) :
    ∃ n, begun.endingAt? backend modelType n =
      some (.returned (compileView begun.context begun.store backend begun.options modelType begun.memo).1) := by
  obtain ⟨n, result, ended⟩ : ∃ n result, begun.course modelType n = .ended result :=
    Walk.exists_course_ended modelType
  obtain ⟨ending, ends⟩ : ∃ ending, begun.endingAt? backend modelType n = some ending := by
    rw [View.endingAt?, ended]
    exact ⟨_, rfl⟩
  exact ⟨n, by rw [ends, View.endingAt?_eq ends]⟩

namespace View

theorem concerning_filter (modelType : String) {α : Type} (entries : List (String × α)) :
    concerning modelType (entries.filter fun entry => entry.1 = modelType) = concerning modelType entries := by
  simp only [concerning, List.filterMap_filter]
  refine List.filterMap_congr fun entry _ => ?_
  by_cases same : entry.1 = modelType <;> simp [same]

theorem mem_of_mem_concerning {modelType : String} {α : Type} {entries : List (String × α)} {entry : α}
    (member : entry ∈ concerning modelType entries) : (modelType, entry) ∈ entries := by
  obtain ⟨⟨key, value⟩, known, same⟩ := List.mem_filterMap.mp member
  split at same
  · rename_i key_eq
    cases same
    exact key_eq ▸ known
  · cases same

/-- Whatever happens for other types of model, the slot of a type, its compiles and its answers are the same: what a
compile by itself comes to, a timeout or a breakdown. -/
theorem types_isolated (context : Context) (store : Store) (options : Options) (memo : Memo) (backend : Backend)
    (events : List (String × SiteEvent)) (modelType : String) :
    let begun := Site.ofView { View.ofContext context store options with memo }
    let whole := begun.run backend events
    let alone := begun.run backend (events.filter fun event => event.1 = modelType)
    whole.1.view.slot modelType = alone.1.view.slot modelType ∧
    (∀ task, (whole.1.jobs modelType task).map (Stage.remembering memo) =
      (alone.1.jobs modelType task).map (Stage.remembering memo)) ∧
    concerning modelType whole.2 = concerning modelType alone.2 ∧
    ∀ request answer, .answer request answer ∈ concerning modelType whole.2 →
      answer = .timedOut ∨
      answer = .ofResult (compileView context store backend options modelType memo).1 ∨
      ∃ task error, (modelType, .crash task error) ∈ events ∧ answer = .failed error := by
  intro begun whole alone
  have counted : begun.Counted begun.view 0 fun _ => .empty :=
    ⟨rfl, rfl, rfl, fun _ => rfl, fun _ => ⟨rfl, fun _ => .none⟩⟩
  obtain ⟨⟨later, reached⟩, told⟩ := counted.run backend events modelType
  obtain ⟨⟨later', reached'⟩, told'⟩ :=
    counted.run backend (events.filter fun event => event.1 = modelType) modelType
  -- Both runs come to what the tally comes to on the events of the type.
  rw [concerning_filter] at reached' told'
  refine ⟨reached.slot.trans reached'.slot.symm, fun task => ?_, told.trans told'.symm, ?_⟩
  · exact (reached.jobs_eq memo task).trans (reached'.jobs_eq memo task).symm
  · intro request answer member
    let expected := (compileView context store backend options modelType memo).1
    let tells (result : Except CompileError Renderer) : Prop :=
      result = expected ∨ ∃ task error, (modelType, .crash task error) ∈ events ∧ result = .error error
    have compiles (n : Nat) (ending : Ending Renderer CompileError)
        (ends : begun.view.endingAt? backend modelType n = some ending) : tells ending.result :=
      .inl (congrArg Ending.result (endingAt?_eq ends))
    have tell : Slot.Tell tells
        (Tally.run (begun.view.endingAt? backend modelType) .empty (concerning modelType events)).2 :=
      Tally.bears_run compiles Slot.bears_empty _ fun task error member =>
        .inr ⟨task, error, mem_of_mem_concerning member, rfl⟩
    rw [told] at member
    rcases tell request answer member with timedOut | ⟨result, same | ⟨task, error, crash, rfl⟩, rfl⟩
    · exact .inl timedOut
    · exact .inr (.inl (congrArg Answer.ofResult same))
    · exact .inr (.inr ⟨task, error, crash, rfl⟩)

namespace Crossing

/-- Two types of model, one of which breaks down while the other is compiled. -/
def events : List (String × SiteEvent) :=
  [("Page", .request ⟨.arrive 1, rfl⟩), ("Note", .request ⟨.arrive 2, rfl⟩), ("Page", .request ⟨.grant 1, rfl⟩),
    ("Note", .request ⟨.grant 2, rfl⟩), ("Page", .request ⟨.lock, rfl⟩), ("Note", .request ⟨.lock, rfl⟩),
    ("Page", .work 0), ("Note", .crash 0 (.aborted .breakdown)), ("Page", .work 0), ("Page", .request ⟨.collect, rfl⟩),
    ("Page", .request ⟨.conclude, rfl⟩)]

def site : Site := .ofView { View.ofContext Walk.circular Files.empty.store .standard with memo := .empty }

theorem told : concerning "Page" (site.run interpreter events).2 =
    [.launch 0, .collect 0, .answer 1 (.failed (.recursivePartial "yield"))] := rfl

end Crossing

open Crossing in
theorem types_isolated_crossing :
    .answer 1 (.failed (.recursivePartial "yield")) ∈ concerning "Page" (site.run interpreter events).2 ∧
    Answer.failed (.recursivePartial "yield") =
      .ofResult (compileView Walk.circular Files.empty.store interpreter .standard "Page" .empty).1 := by
  have member : .answer 1 (.failed (.recursivePartial "yield")) ∈ concerning "Page" (site.run interpreter events).2 := by
    rw [told]
    simp
  obtain ⟨_, _, _, answers⟩ := types_isolated Walk.circular Files.empty.store .standard .empty interpreter events "Page"
  rcases answers 1 _ member with timedOut | same | ⟨task, error, crash, _⟩
  · cases timedOut
  · exact ⟨member, same⟩
  · simp [events] at crash

end View

end Stencil
