import Mathlib.Data.Finset.Card
import Stencil.Proofs.Walk.Stepwise

/-! Looking partials up, one after the other.

The answer to a call is what is remembered for a path that agrees with its own, or else what the store says at the time.
What is remembered are the documents that calls have been answered with, each of them once.
-/

set_option autoImplicit false

namespace Stencil

open Template (Document)
open Walk (find?_of_components)

structure Lookup where
  store : Store
  name : String

def Memo.learn (memo : Memo) : Except CompileError (Path × Document) → Memo
  | .ok (path, document) => memo.insert path document
  | .error _ => memo

theorem Store.loadForView_of_read {store : Store} {path other : Path} {document : Document}
    (same : store.read other = store.read path) (loaded : store.loadForView path = .ok document) :
    store.loadForView other = .ok document := by
  simp only [Store.loadForView, Store.load, same] at loaded ⊢
  cases text : store.read path with
  | error error =>
    rw [text] at loaded
    cases loaded
  | ok text' =>
    rw [text] at loaded
    cases parsed : Document.ofText text' with
    | error fault =>
      simp only [parsed] at loaded
      cases loaded
    | ok other =>
      simp only [parsed] at loaded ⊢
      exact loaded

namespace Context

def lookUp (context : Context) (memo : Memo) (call : Lookup) : Except CompileError (Path × Document) × Memo :=
  match context.resolve call.store memo call.name with
  | .ok (path, document, later) => (.ok (path, document), later)
  | .error error => (.error error, memo)

def memoAfter (context : Context) (memo : Memo) (calls : List Lookup) : Memo :=
  calls.foldl (fun memo call => (context.lookUp memo call).2) memo

def answers (context : Context) : Memo → List Lookup → List (Except CompileError (Path × Document))
  | _, [] => []
  | memo, call :: rest => (context.lookUp memo call).1 :: context.answers (context.lookUp memo call).2 rest

/-- What the store says by itself. -/
def consult (context : Context) (call : Lookup) : Except CompileError (Path × Document) :=
  let path := context.partialPath call.name
  if call.store.holds path then (call.store.loadForView path).map fun document => (path, document)
  else .error (.partialNotFound path)

variable {context : Context} {memo : Memo} {call : Lookup}

theorem lookUp_of_remembered {document : Document}
    (found : memo.find? (context.partialPath call.name) = some document) :
    context.lookUp memo call = (.ok (context.partialPath call.name, document), memo) := by
  simp only [lookUp, resolve, found]

theorem lookUp_of_unknown (unknown : memo.find? (context.partialPath call.name) = none) :
    context.lookUp memo call = (context.consult call, memo.learn (context.consult call)) := by
  simp only [lookUp, resolve, consult, unknown]
  generalize context.partialPath call.name = path
  by_cases there : call.store.holds path = true
  · simp only [there, if_true]
    cases call.store.loadForView path <;> rfl
  · simp only [there, Bool.false_eq_true, if_false]
    rfl

theorem lookUp_empty (call : Lookup) : (context.lookUp .empty call).1 = context.consult call := by
  rw [lookUp_of_unknown (Memo.find?_empty _)]

theorem consult_eq_ok_iff {store : Store} {name : String} {path : Path} {document : Document} :
    context.consult ⟨store, name⟩ = .ok (path, document) ↔ path = context.partialPath name ∧
      store.holds (context.partialPath name) = true ∧
      store.loadForView (context.partialPath name) = .ok document := by
  simp only [consult]
  generalize context.partialPath name = wanted
  by_cases there : store.holds wanted = true
  · simp only [there, if_true, true_and]
    cases store.loadForView wanted with
    | error error => simp [Except.map]
    | ok document => simp [Except.map, eq_comm]
  · simp [there]

theorem consult_path {path : Path} {document : Document} (answer : context.consult call = .ok (path, document)) :
    path = context.partialPath call.name := (consult_eq_ok_iff.1 answer).1

theorem memoAfter_append (calls more : List Lookup) :
    context.memoAfter memo (calls ++ more) = context.memoAfter (context.memoAfter memo calls) more :=
  List.foldl_append

theorem answers_append (memo : Memo) (calls more : List Lookup) :
    context.answers memo (calls ++ more) =
      context.answers memo calls ++ context.answers (context.memoAfter memo calls) more := by
  induction calls generalizing memo with
  | nil => rfl
  | cons call rest ih => simp only [List.cons_append, answers, ih, memoAfter, List.foldl_cons]

end Context

namespace Memo

theorem find?_insert (memo : Memo) (path other : Path) (document : Document) :
    (memo.insert path document).find? other =
      (memo.find? other).or (if path.agrees other then some document else none) := by
  simp only [find?, insert, List.find?_append, List.find?_singleton]
  cases memo.documents.find? fun entry => entry.1.agrees other with
  | some entry => rfl
  | none => split <;> rfl

/-- Of the answers so far, a memo remembers the documents, each for the paths that agree with its own. -/
def Recalls (memo : Memo) (told : List (Except CompileError (Path × Document))) : Prop :=
  ∀ path document, memo.find? path = some document ↔
    ∃ other, .ok (other, document) ∈ told ∧ other.agrees path = true

namespace Recalls

variable {memo : Memo} {told : List (Except CompileError (Path × Document))} {wanted : Path} {document : Document}

theorem again (recalls : memo.Recalls told) (known : memo.find? wanted = some document) :
    memo.Recalls (told ++ [.ok (wanted, document)]) := by
  intro path other
  simp only [recalls path other, List.mem_append, List.mem_singleton, Except.ok.injEq, Prod.mk.injEq]
  constructor
  · rintro ⟨first, member, agrees⟩
    exact ⟨first, .inl member, agrees⟩
  · rintro ⟨first, member | ⟨rfl, rfl⟩, agrees⟩
    · exact ⟨first, member, agrees⟩
    · obtain ⟨before, member, same⟩ := (recalls _ _).1 known
      exact ⟨before, member, Path.agrees_iff.2 ((Path.agrees_iff.1 same).trans (Path.agrees_iff.1 agrees))⟩

theorem failed (recalls : memo.Recalls told) (error : CompileError) : memo.Recalls (told ++ [.error error]) := by
  intro path other
  simp only [recalls path other, List.mem_append, List.mem_singleton, reduceCtorEq, or_false]

theorem learn (recalls : memo.Recalls told) (unknown : memo.find? wanted = none) :
    (memo.insert wanted document).Recalls (told ++ [.ok (wanted, document)]) := by
  intro path other
  simp only [find?_insert, List.mem_append, List.mem_singleton, Except.ok.injEq, Prod.mk.injEq]
  cases agrees : wanted.agrees path with
  | false =>
    simp only [Bool.false_eq_true, if_false, Option.or_none, recalls path other]
    constructor
    · rintro ⟨first, member, same⟩
      exact ⟨first, .inl member, same⟩
    · rintro ⟨first, member | ⟨rfl, rfl⟩, same⟩
      · exact ⟨first, member, same⟩
      · exact absurd (agrees.symm.trans same) Bool.noConfusion
  | true =>
    -- Had a call been answered for such a path before, this one would have been answered alike.
    have unknown' : memo.find? path = none := (find?_of_components (Path.agrees_iff.1 agrees)).symm.trans unknown
    simp only [unknown', if_true, Option.none_or, Option.some.injEq]
    constructor
    · rintro rfl
      exact ⟨wanted, .inr ⟨rfl, rfl⟩, agrees⟩
    · rintro ⟨first, member | ⟨rfl, rfl⟩, same⟩
      · rw [(recalls path other).2 ⟨first, member, same⟩] at unknown'
        cases unknown'
      · rfl

end Recalls

end Memo

namespace Context

variable {context : Context} {memo : Memo} {calls : List Lookup} {call : Lookup}

/-- A call is answered with what is remembered, or what it is answered with is remembered from then on. -/
theorem recalls_lookUp {told : List (Except CompileError (Path × Document))} (recalls : memo.Recalls told)
    (call : Lookup) : (context.lookUp memo call).2.Recalls (told ++ [(context.lookUp memo call).1]) := by
  cases known : memo.find? (context.partialPath call.name) with
  | some document =>
    rw [lookUp_of_remembered known]
    exact recalls.again known
  | none =>
    rw [lookUp_of_unknown known]
    cases answer : context.consult call with
    | error error => exact recalls.failed error
    | ok found => exact recalls.learn (consult_path answer ▸ known)

theorem recalls_memoAfter (calls : List Lookup) :
    (context.memoAfter .empty calls).Recalls (context.answers .empty calls) := by
  induction calls using List.reverseRecOn with
  | nil =>
    intro path document
    simp [memoAfter, answers]
  | append_singleton calls call ih =>
    rw [memoAfter_append, answers_append]
    exact recalls_lookUp ih call

theorem find?_memoAfter (calls : List Lookup) (path : Path) (document : Document) :
    (context.memoAfter .empty calls).find? path = some document ↔
      ∃ other, .ok (other, document) ∈ context.answers .empty calls ∧ other.agrees path = true :=
  recalls_memoAfter calls path document

theorem lookUp_of_answered {other : Path} {document : Document}
    (answered : .ok (other, document) ∈ context.answers .empty calls)
    (agrees : other.agrees (context.partialPath call.name) = true) :
    context.lookUp (context.memoAfter .empty calls) call =
      (.ok (context.partialPath call.name, document), context.memoAfter .empty calls) :=
  lookUp_of_remembered ((find?_memoAfter calls _ document).2 ⟨other, answered, agrees⟩)

theorem lookUp_of_unanswered
    (unanswered : ∀ other document, .ok (other, document) ∈ context.answers .empty calls →
      other.agrees (context.partialPath call.name) = false) :
    context.lookUp (context.memoAfter .empty calls) call =
      (context.consult call, (context.memoAfter .empty calls).learn (context.consult call)) := by
  refine lookUp_of_unknown (Option.eq_none_iff_forall_not_mem.2 fun document found => ?_)
  obtain ⟨other, answered, agrees⟩ := (find?_memoAfter calls _ document).1 found
  exact absurd ((unanswered other document answered).symm.trans agrees) Bool.noConfusion

theorem lookUp_eq_error {memo : Memo} {error : CompileError} (failed : (context.lookUp memo call).1 = .error error) :
    memo.find? (context.partialPath call.name) = none ∧ context.consult call = .error error ∧
      (context.lookUp memo call).2 = memo := by
  cases known : memo.find? (context.partialPath call.name) with
  | some document =>
    rw [lookUp_of_remembered known] at failed
    cases failed
  | none =>
    rw [lookUp_of_unknown known] at failed ⊢
    exact ⟨rfl, failed, congrArg memo.learn failed⟩

theorem lookUp_of_failed {memo : Memo} {next : Lookup} {error : CompileError}
    (failed : (context.lookUp memo call).1 = .error error)
    (agrees : (context.partialPath call.name).agrees (context.partialPath next.name) = true) :
    (context.lookUp (context.lookUp memo call).2 next).1 = context.consult next := by
  obtain ⟨unknown, _, same⟩ := lookUp_eq_error failed
  rw [same, lookUp_of_unknown ((find?_of_components (Path.agrees_iff.1 agrees)).symm.trans unknown)]

/-! ### How much is remembered -/

def answeredPaths (answers : List (Except CompileError (Path × Document))) : List (List Path.Component) :=
  answers.filterMap fun answer => answer.toOption.map fun found => found.1.components

theorem mem_answeredPaths {answers : List (Except CompileError (Path × Document))}
    {components : List Path.Component} :
    components ∈ answeredPaths answers ↔
      ∃ path document, .ok (path, document) ∈ answers ∧ path.components = components := by
  simp only [answeredPaths, List.mem_filterMap]
  constructor
  · rintro ⟨_ | ⟨path, document⟩, member, same⟩
    · cases same
    · exact ⟨path, document, member, Option.some.inj same⟩
  · rintro ⟨path, document, member, rfl⟩
    exact ⟨_, member, rfl⟩

end Context

namespace Memo

def paths (memo : Memo) : List (List Path.Component) := memo.documents.map fun entry => entry.1.components

theorem mem_paths {memo : Memo} {components : List Path.Component} :
    components ∈ memo.paths ↔ ∃ path document, memo.find? path = some document ∧ path.components = components := by
  simp only [paths, find?, List.mem_map, Option.map_eq_some_iff]
  constructor
  · rintro ⟨entry, member, rfl⟩
    have found : (memo.documents.find? fun other => other.1.agrees entry.1).isSome :=
      List.find?_isSome.2 ⟨entry, member, Path.agrees_iff.2 rfl⟩
    obtain ⟨other, first⟩ := Option.isSome_iff_exists.1 found
    exact ⟨entry.1, other.2, ⟨other, first, rfl⟩, rfl⟩
  · rintro ⟨path, _, ⟨entry, first, rfl⟩, rfl⟩
    have agrees := List.find?_some first
    exact ⟨entry, List.mem_of_find?_eq_some first, Path.agrees_iff.1 agrees⟩

theorem paths_insert (memo : Memo) (path : Path) (document : Document) :
    (memo.insert path document).paths = memo.paths ++ [path.components] := List.map_append

end Memo

namespace Context

variable {context : Context} {calls : List Lookup} {call : Lookup}

theorem nodup_lookUp {memo : Memo} (apart : memo.paths.Nodup) : (context.lookUp memo call).2.paths.Nodup := by
  cases known : memo.find? (context.partialPath call.name) with
  | some document => rwa [lookUp_of_remembered known]
  | none =>
    rw [lookUp_of_unknown known]
    cases answer : context.consult call with
    | error error => exact apart
    | ok found =>
      have new : found.1.components ∉ memo.paths := by
        rw [Memo.mem_paths, consult_path answer]
        rintro ⟨path, document, found, same⟩
        rw [find?_of_components same, known] at found
        cases found
      rw [Memo.learn, Memo.paths_insert, ← List.concat_eq_append]
      exact apart.concat new

theorem nodup_memoAfter {memo : Memo} (apart : memo.paths.Nodup) (calls : List Lookup) :
    (context.memoAfter memo calls).paths.Nodup := by
  induction calls generalizing memo with
  | nil => exact apart
  | cons call rest ih => exact ih (nodup_lookUp apart)

theorem size_memoAfter (calls : List Lookup) :
    (context.memoAfter .empty calls).size = (answeredPaths (context.answers .empty calls)).toFinset.card := by
  have apart : (context.memoAfter .empty calls).paths.Nodup := nodup_memoAfter (show Memo.empty.paths.Nodup from List.nodup_nil) calls
  have same : (context.memoAfter .empty calls).paths.toFinset =
      (answeredPaths (context.answers .empty calls)).toFinset := by
    ext components
    simp only [List.mem_toFinset, mem_answeredPaths, Memo.mem_paths, find?_memoAfter, Path.agrees_iff]
    constructor
    · rintro ⟨path, document, ⟨other, answered, agrees⟩, rfl⟩
      exact ⟨other, document, answered, agrees⟩
    · rintro ⟨path, document, answered, rfl⟩
      exact ⟨path, document, ⟨path, answered, rfl⟩, rfl⟩
  rw [← same, List.toFinset_card_of_nodup apart, Memo.paths, List.length_map, Memo.size]

/-! ### A store that does not change -/

/-- Whether a store answers alike for all paths of some names that agree: what is there for one is there for the other,
with the same text or the same failure to read it. -/
def Alike (context : Context) (store : Store) (names : Set String) : Prop :=
  ∀ name ∈ names, ∀ other ∈ names, (context.partialPath name).agrees (context.partialPath other) = true →
    store.holds (context.partialPath name) = true →
    store.holds (context.partialPath other) = true ∧
      store.read (context.partialPath other) = store.read (context.partialPath name)

variable {store : Store} {names : Set String} {memo : Memo} {name : String}

theorem consult_of_alike (alike : context.Alike store names) {other : String} {path : Path} {document : Document}
    (member : other ∈ names) (known : name ∈ names) (answer : context.consult ⟨store, other⟩ = .ok (path, document))
    (agrees : path.agrees (context.partialPath name) = true) :
    context.consult ⟨store, name⟩ = .ok (context.partialPath name, document) := by
  obtain ⟨same, there, loaded⟩ := consult_eq_ok_iff.1 answer
  rw [same] at agrees
  obtain ⟨there', read⟩ := alike other member name known agrees there
  exact consult_eq_ok_iff.2 ⟨rfl, there', Store.loadForView_of_read read loaded⟩

/-- Whether all that is remembered has been read for some of the names. -/
def Drawn (context : Context) (store : Store) (names : Set String) (memo : Memo) : Prop :=
  ∀ entry ∈ memo.documents, ∃ name ∈ names, context.consult ⟨store, name⟩ = .ok entry

theorem drawn_empty : context.Drawn store names .empty := by
  intro entry member
  cases member

/-- The answer to a call is then that of the store, whatever is remembered. -/
theorem lookUp_of_drawn (alike : context.Alike store names) (drawn : context.Drawn store names memo)
    (known : name ∈ names) :
    (context.lookUp memo ⟨store, name⟩).1 = context.consult ⟨store, name⟩ ∧
      context.Drawn store names (context.lookUp memo ⟨store, name⟩).2 := by
  cases found : memo.find? (context.partialPath name) with
  | some document =>
    have same : context.lookUp memo ⟨store, name⟩ = (.ok (context.partialPath name, document), memo) :=
      lookUp_of_remembered found
    rw [same]
    refine ⟨?_, drawn⟩
    -- The document has been read for another name, for which the store answers alike.
    obtain ⟨entry, first, rfl⟩ := Option.map_eq_some_iff.1 found
    obtain ⟨other, member, answer⟩ := drawn entry (List.mem_of_find?_eq_some first)
    have agrees := List.find?_some first
    exact (consult_of_alike alike member known answer agrees).symm
  | none =>
    have same : context.lookUp memo ⟨store, name⟩ =
        (context.consult ⟨store, name⟩, memo.learn (context.consult ⟨store, name⟩)) := lookUp_of_unknown found
    rw [same]
    refine ⟨rfl, ?_⟩
    cases answer : context.consult ⟨store, name⟩ with
    | error error => exact drawn
    | ok entry =>
      intro other member
      rcases List.mem_append.1 member with earlier | new
      · exact drawn other earlier
      · exact ⟨name, known, by rw [answer, List.mem_singleton.1 new]⟩

theorem drawn_memoAfter (alike : context.Alike store names) (drawn : context.Drawn store names memo)
    (same : ∀ call ∈ calls, call.store = store ∧ call.name ∈ names) :
    context.Drawn store names (context.memoAfter memo calls) := by
  induction calls generalizing memo with
  | nil => exact drawn
  | cons call rest ih =>
    obtain ⟨⟨rfl, known⟩, others⟩ := List.forall_mem_cons.1 same
    exact ih (lookUp_of_drawn alike drawn known).2 others

end Context

end Stencil
