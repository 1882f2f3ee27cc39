import Stencil.Composition.Context

/-! What looking up a partial does to the documents that are remembered. -/

set_option autoImplicit false

namespace Stencil

open Template (Document)

namespace Memo

theorem find?_of_prefix {memo later : Memo} (grown : memo.documents <+: later.documents) {path : Path}
    {document : Document} (found : memo.find? path = some document) : later.find? path = some document := by
  obtain ⟨more, same⟩ := grown
  obtain ⟨entry, first, rfl⟩ := Option.map_eq_some_iff.1 found
  simp [find?, ← same, List.find?_append, first]

/-- Whether every document of a memo either was in an earlier one or is what the store holds at its path. -/
def GrownFrom (store : Store) (earlier memo : Memo) : Prop :=
  ∀ entry ∈ memo.documents, entry ∈ earlier.documents ∨ store.loadForView entry.1 = .ok entry.2

theorem GrownFrom.refl (store : Store) (memo : Memo) : memo.GrownFrom store memo :=
  fun _ member => .inl member

theorem GrownFrom.trans {store : Store} {first second third : Memo} (h : first.GrownFrom store second)
    (h' : second.GrownFrom store third) : first.GrownFrom store third := by
  intro entry member
  rcases h' entry member with earlier | loaded
  · exact h entry earlier
  · exact .inr loaded

end Memo

namespace Context

/-- What a look-up that succeeds gives: the path of the name, the document that is remembered for it from now
on, and a memo that has at most this document in addition. -/
theorem resolve_ok {context : Context} {store : Store} {memo later : Memo} {name : String} {path : Path}
    {document : Document} (h : context.resolve store memo name = .ok (path, document, later)) :
    path = context.partialPath name ∧ memo.documents <+: later.documents ∧
      later.find? (context.partialPath name) = some document ∧ memo.GrownFrom store later := by
  unfold resolve at h
  -- The path stays a variable: comparing two copies of its definition would unfold the joining of names.
  generalize context.partialPath name = wanted at h ⊢
  cases found : memo.find? wanted with
  | some _ =>
    simp only [found, Except.ok.injEq, Prod.mk.injEq] at h
    obtain ⟨rfl, rfl, rfl⟩ := h
    exact ⟨rfl, List.prefix_rfl, found, .refl _ _⟩
  | none =>
    simp only [found] at h
    split at h
    · cases loaded : store.loadForView wanted with
      | error error => simp [loaded, bind, Except.bind] at h
      | ok document =>
        simp only [loaded, bind, Except.bind, pure, Except.pure, Except.ok.injEq, Prod.mk.injEq] at h
        obtain ⟨rfl, rfl, rfl⟩ := h
        refine ⟨rfl, ⟨_, rfl⟩, Memo.find?_insert_of_agrees found (Path.agrees_iff.2 rfl), ?_⟩
        intro entry member
        rcases List.mem_append.1 member with earlier | new
        · exact .inl earlier
        · rw [List.mem_singleton.1 new]
          exact .inr loaded
    · cases h

end Context

end Stencil
