import Stencil.Proofs.View.Safe

/-! The operations of a view act on its slots by events only.

Whatever a view does for a request or for a call that returns, each slot takes steps and nothing else, so that
the invariant of slots holds of every view in use.
-/

set_option autoImplicit false

namespace Stencil

namespace Slot

variable {ρ ε : Type}

theorem run_append (slot : Slot ρ ε) (first second : List (SlotEvent ρ ε)) :
    (slot.run (first ++ second)).1 = ((slot.run first).1.run second).1 := by
  induction first generalizing slot with
  | nil => rfl
  | cons event rest ih => exact ih (slot.step event).1

theorem exists_settle (slot : Slot ρ ε) : ∃ events, slot.settle = slot.run events := by
  -- Along the recursion of `settle`, so that the bound on its steps plays no part.
  induction slot using settle.induct with
  | case1 slot rest =>
    refine ⟨[], ?_⟩
    rw [settle]
    split
    · rfl
    · rename_i event ready
      rw [rest] at ready
      cases ready
  | case2 slot event ready settled more found ih =>
    obtain ⟨events, same⟩ := ih
    refine ⟨event :: events, ?_⟩
    rw [settle]
    split
    · rename_i rest
      rw [ready] at rest
      cases rest
    · rename_i other again
      rw [ready] at again
      cases again
      simp only [run, same]

theorem exists_react (slot : Slot ρ ε) (event : SlotEvent ρ ε) :
    ∃ events, slot.react event = slot.run (event :: events) := by
  obtain ⟨events, same⟩ := (slot.step event).1.exists_settle
  refine ⟨events, ?_⟩
  simp only [react, run, same]

end Slot

namespace View

/-- Each slot of a view has only taken steps to get where it is in another one. -/
def Follows (view next : View) : Prop :=
  ∀ modelType, ∃ events, next.slot modelType = ((view.slot modelType).run events).1

theorem Follows.of_slots {view next : View} (h : next.slots = view.slots) : view.Follows next := by
  intro modelType
  refine ⟨[], ?_⟩
  simp only [View.slot, h, Slot.run]

theorem Follows.trans {view next last : View} (first : view.Follows next) (second : next.Follows last) :
    view.Follows last := by
  intro modelType
  obtain ⟨early, between⟩ := first modelType
  obtain ⟨late, after⟩ := second modelType
  refine ⟨early ++ late, ?_⟩
  rw [after, between, Slot.run_append]

theorem Follows.sound {view next : View} (follows : view.Follows next)
    (sound : ∀ modelType, (view.slot modelType).Sound) (modelType : String) :
    (next.slot modelType).Sound := by
  obtain ⟨events, same⟩ := follows modelType
  rw [same]
  exact (sound modelType).run events

theorem react_follows (view : View) (modelType : String) (event : SlotEvent Renderer CompileError) :
    view.Follows (view.react modelType event).1 := by
  intro other
  obtain ⟨events, same⟩ := (view.slot modelType).exists_react event
  simp only [react, same]
  by_cases here : other = modelType
  · subst here
    exact ⟨event :: events, slot_setSlot_same ..⟩
  · exact ⟨[], slot_setSlot_other view here _⟩

theorem land_follows (view : View) (modelType : String) (ending : Ending Renderer CompileError) :
    view.Follows (view.land modelType ending).1 := by
  unfold land
  split
  · exact view.react_follows modelType _
  · exact .of_slots rfl

theorem work_slots (view : View) (backend : Backend) (conduct : Conduct) (modelType : String) :
    (view.work backend conduct modelType).1.slots = view.slots := by
  unfold work
  split
  · rfl
  · dsimp only
    split <;> rfl

theorem expireTurn_follows (view : View) (modelType : String) :
    view.Follows (view.expireTurn modelType).1 := by
  unfold expireTurn
  split
  · exact view.react_follows modelType _
  · exact .of_slots rfl

theorem advance_follows (view : View) (backend : Backend) (conduct : Conduct) (modelType : String) :
    view.Follows (view.advance backend conduct modelType).1 := by
  -- Working on a compile leaves the slots alone: only what comes of it is an event.
  have work := view.work_slots backend conduct modelType
  unfold advance
  split
  · exact view.expireTurn_follows modelType
  · split <;> rename_i worked <;> rw [worked] at work
    · exact .trans (.of_slots work) (land_follows _ _ _)
    · exact .trans (.of_slots work) (expireTurn_follows _ _)

theorem finish_follows (backend : Backend) (conduct : Conduct) (modelType : String) (rounds : Nat)
    (view : View) : view.Follows (finish backend conduct modelType rounds view).1 := by
  induction rounds generalizing view with
  | zero => exact .of_slots rfl
  | succ rounds ih =>
    unfold finish
    split
    · exact .of_slots rfl
    · exact .trans (view.advance_follows backend conduct modelType) (ih _)

theorem arriveAll_follows (modelType : String) (requests : List Nat) (view : View) :
    view.Follows (arriveAll modelType requests view).1 := by
  induction requests generalizing view with
  | nil => exact .of_slots rfl
  | cons request rest ih => exact .trans (view.react_follows modelType _) (ih _)

theorem requestAll_follows (view : View) (backend : Backend) (conduct : Conduct) (modelType : String)
    (count : Nat) : view.Follows (view.requestAll backend conduct modelType count).1 :=
  .trans (arriveAll_follows modelType (List.range count) view) (finish_follows _ _ _ _ _)

theorem resume_follows (view : View) (backend : Backend) (conduct : Conduct) (stuck : String × Walked) :
    view.Follows (view.resume backend conduct stuck) := by
  unfold resume
  split
  · exact view.land_follows _ _
  · exact .of_slots rfl

theorem release_follows (view : View) (backend : Backend) (conduct : Conduct) :
    view.Follows (view.release backend conduct) := by
  -- The calls that are left shrink while the view goes on, so the view is part of what is proved.
  have resumed : ∀ (stalled : List (String × Walked)) (next : View), view.Follows next →
      view.Follows (stalled.foldl (fun view stuck => view.resume backend conduct stuck) next) := by
    intro stalled
    induction stalled with
    | nil => exact fun _ follows => follows
    | cons stuck rest ih =>
      intro next follows
      exact ih _ (follows.trans (next.resume_follows backend conduct stuck))
  exact resumed view.stalled _ (.of_slots rfl)

end View

end Stencil
