import Stencil.Proofs.Backend
import Stencil.Proofs.Program.Accounts
import Stencil.Proofs.Program.Interpreter

/-! The messages of the diagnostics that carry the name of one unit.

Sorting the diagnostics keeps those of one name in their order, and so do the places where they stand, as long as
what comes first in one program comes first in the other.
-/

set_option autoImplicit false

namespace Stencil

/-! ### Stable sorting -/

section

variable {α β : Type} {le : α → α → Bool}

theorem eq_of_divided {a : α} {first rest first' rest' : List α} (same : first ++ rest = first' ++ rest')
    (less : ∀ b ∈ first, !le a b) (more : ∀ b ∈ rest, le a b) (less' : ∀ b ∈ first', !le a b)
    (more' : ∀ b ∈ rest', le a b) : first = first' ∧ rest = rest' := by
  have front : ∀ (first rest : List α), (∀ b ∈ first, !le a b) → (∀ b ∈ rest, le a b) →
      (first ++ rest).takeWhile (fun b => !le a b) = first := by
    intro first rest less more
    rw [List.takeWhile_append_of_pos less]
    cases rest with
    | nil => simp
    | cons b rest => rw [List.takeWhile_cons_of_neg (by simp [more b List.mem_cons_self]), List.append_nil]
  have equal : first = first' := by
    rw [← front first rest less more, same, front first' rest' less' more']
  subst equal
  exact ⟨rfl, List.append_cancel_left same⟩

theorem filter_mergeSort (trans : ∀ a b c, le a b → le b c → le a c) (total : ∀ a b, le a b || le b a)
    (p : α → Bool) (l : List α) : (l.mergeSort le).filter p = (l.filter p).mergeSort le := by
  induction l with
  | nil => simp
  | cons a l ih =>
    obtain ⟨first, rest, whole, others, less⟩ := List.mergeSort_cons trans total a l
    have more : ∀ b ∈ rest, le a b := by
      have sorted := List.pairwise_mergeSort trans total (a :: l)
      rw [whole] at sorted
      exact fun b member => List.rel_of_pairwise_cons (List.pairwise_append.mp sorted).2.1 member
    rw [others, List.filter_append] at ih
    rw [whole, List.filter_append]
    by_cases keep : p a
    · -- The element divides both sorted lists into what is less and what is not, which can be done in one way.
      obtain ⟨first', rest', whole', others', less'⟩ := List.mergeSort_cons trans total a (l.filter p)
      have more' : ∀ b ∈ rest', le a b := by
        have sorted := List.pairwise_mergeSort trans total (a :: l.filter p)
        rw [whole'] at sorted
        exact fun b member => List.rel_of_pairwise_cons (List.pairwise_append.mp sorted).2.1 member
      obtain ⟨same, same'⟩ := eq_of_divided (ih.trans others')
        (fun b member => less b (List.mem_filter.mp member).1)
        (fun b member => more b (List.mem_filter.mp member).1) less' more'
      rw [List.filter_cons_of_pos keep, List.filter_cons_of_pos keep, whole', same, same']
    · rw [List.filter_cons_of_neg keep, List.filter_cons_of_neg keep, ih]

theorem map_mergeSort_alike {γ : Type} {le' : β → β → Bool} {l : List γ} {f : γ → α} {g : γ → β} {δ : Type}
    {show_ : α → δ} {show' : β → δ} (order : ∀ a ∈ l, ∀ b ∈ l, le (f a) (f b) = le' (g a) (g b))
    (shows : ∀ a ∈ l, show_ (f a) = show' (g a)) :
    ((l.map f).mergeSort le).map show_ = ((l.map g).mergeSort le').map show' := by
  rw [← List.map_mergeSort (r := fun a b => le (f a) (f b)) (fun _ _ _ _ => rfl), ← List.map_mergeSort (r := fun a b => le (f a) (f b)) order,
    List.map_map, List.map_map]
  exact List.map_congr_left fun a member => shows a (List.mem_mergeSort.mp member)

end

/-! ### The messages of one name -/

/-- The messages of the diagnostics that carry a name, in their order. -/
def messagesOf (name : String) (diagnostics : List Diagnostic) : List String :=
  (diagnostics.filter fun d => d.unit = some name).map Diagnostic.message

/-- The diagnostics of an answer; a good one has none. -/
def diagnosticsOf {α : Type} : Except (List Diagnostic) α → List Diagnostic
  | .ok _ => []
  | .error diagnostics => diagnostics

theorem messagesOf_append (name : String) (first rest : List Diagnostic) :
    messagesOf name (first ++ rest) = messagesOf name first ++ messagesOf name rest := by
  rw [messagesOf, List.filter_append, List.map_append]
  rfl

namespace Program

def findingsOf (name : String) (findings : List Finding) : List Finding :=
  findings.filter fun finding => finding.unit = some name

section

variable (name : String)

/-- A function that is declared again is told each time but the first. -/
theorem messagesOf_repeated (source : String) (declarations : List Declaration) :
    messagesOf name ((repeated [] declarations).map (Declaration.duplicate source)) =
      List.replicate ((declarations.map Declaration.name).count name - 1)
        (Problem.duplicateFunction name).message := by
  -- Over any names seen before, since the list of them grows.
  have run : ∀ seen : List String,
      messagesOf name ((repeated seen declarations).map (Declaration.duplicate source)) =
        List.replicate ((declarations.map Declaration.name).count name - if name ∈ seen then 0 else 1)
          (Problem.duplicateFunction name).message := by
    induction declarations with
    | nil =>
      intro seen
      simp [repeated, messagesOf]
    | cons d rest ih =>
      intro seen
      have first : ∀ others, messagesOf name (d.duplicate source :: others) =
          if d.name = name then (Problem.duplicateFunction name).message :: messagesOf name others
          else messagesOf name others := by
        intro others
        by_cases here : d.name = name
        · simp [messagesOf, Declaration.duplicate, here]
        · simp [messagesOf, Declaration.duplicate, here]
      rw [repeated]
      by_cases again : d.name ∈ seen
      · rw [if_pos again, List.map_cons, first, ih, List.map_cons, List.count_cons]
        by_cases here : d.name = name
        · simp [here, here ▸ again, List.replicate_succ]
        · simp [here]
      · rw [if_neg again, ih, List.map_cons, List.count_cons]
        by_cases here : d.name = name
        · simp [here, here ▸ again]
        · simp [here, Ne.symm here]
  simpa using run []

theorem messagesOf_sorted (source : String) (findings : List Finding) :
    messagesOf name
        ((findings.map (Finding.diagnostic source)).mergeSort fun a b => decide (a.start ≤ b.start)) =
      (((findingsOf name findings).map (Finding.diagnostic source)).mergeSort
        fun a b => decide (a.start ≤ b.start)).map Diagnostic.message := by
  rw [messagesOf, filter_mergeSort, List.filter_map]
  · rfl
  · intro a b c
    simp only [decide_eq_true_eq]
    exact Nat.le_trans
  · intro a b
    simp only [Bool.or_eq_true, decide_eq_true_eq]
    exact Nat.le_total _ _

theorem surveyFor_eq (request : Request) :
    surveyFor request = (accountOf (functionsOf request.references) request.source.toList).survey := by
  rw [surveyFor, tokenize_eq]
  rfl

theorem diagnostics_ofText (functions : List Function) (source : String) :
    (Contents.ofText functions source).diagnostics =
      ((accountOf functions source.toList).findings.map (Finding.diagnostic source)).mergeSort
        fun a b => decide (a.start ≤ b.start) := by
  rw [Contents.ofText, tokenize_eq]
  rfl

theorem diagnosticsOf_interpreter (request : Request) :
    diagnosticsOf (interpreter request) =
      (request.references.filter fun name => (library? name).isNone).map unknownLibrary ++
        (Contents.ofText (functionsOf request.references) request.source).diagnostics ++
          (repeated [] (surveyFor request).declarations).map (Declaration.duplicate request.source) := by
  have answer : ∀ (problems : List Diagnostic) (library : Library),
      diagnosticsOf (if problems.isEmpty then .ok library else .error problems) = problems := by
    intro problems library
    cases problems <;> rfl
  exact answer _ _

/-- What the interpreter tells of a name: the findings in the order of their places, and then how often a
function of that name is declared again. -/
theorem messagesOf_interpreter (request : Request) :
    messagesOf name (diagnosticsOf (interpreter request)) =
      (((findingsOf name (accountOf (functionsOf request.references) request.source.toList).findings).map
          (Finding.diagnostic request.source)).mergeSort fun a b => decide (a.start ≤ b.start)).map
            Diagnostic.message ++
        List.replicate
          (((accountOf (functionsOf request.references) request.source.toList).survey.declarations.map
            Declaration.name).count name - 1) (Problem.duplicateFunction name).message := by
  have unknown : ∀ names : List String, messagesOf name (names.map unknownLibrary) = [] := by
    intro names
    simp [messagesOf, unknownLibrary, Diagnostic.plain]
  rw [diagnosticsOf_interpreter, messagesOf_append, messagesOf_append, unknown, diagnostics_ofText,
    messagesOf_sorted, messagesOf_repeated, surveyFor_eq, List.nil_append]

theorem messagesOf_of_unnamed {name : String} {request : Request}
    (unnamed : name ∉ namedIn request.source.toList) :
    messagesOf name (diagnosticsOf (interpreter request)) = [] := by
  have silent : findingsOf name (accountOf (functionsOf request.references) request.source.toList).findings = [] := by
    rw [findingsOf, List.filter_eq_nil_iff]
    intro finding member carries
    exact unnamed ((finding_accountOf member).1 name (by simpa using carries))
  rw [messagesOf_interpreter, silent, List.count_eq_zero.mpr fun member =>
    unnamed ((declared_accountOf _ _).subset member), List.map_nil, List.mergeSort_nil]
  rfl

theorem unit_ne_of_messagesOf {name : String} {request : Request}
    (none : messagesOf name (diagnosticsOf (interpreter request)) = []) :
    ∀ finding ∈ (accountOf (functionsOf request.references) request.source.toList).findings,
      finding.unit ≠ some name := by
  rw [messagesOf_interpreter, List.append_eq_nil_iff, List.map_eq_nil_iff, ← List.length_eq_zero_iff,
    List.length_mergeSort, List.length_map, List.length_eq_zero_iff, findingsOf, List.filter_eq_nil_iff] at none
  intro finding member
  simpa using none.1 finding member

end

end Program

end Stencil
