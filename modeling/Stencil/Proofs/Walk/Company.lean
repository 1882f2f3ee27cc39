import Stencil.Proofs.Program.Places
import Stencil.Proofs.Walk.Calls

/-! Walks that go on beside each other.

Calls from outside and the steps of any number of walks may follow in any order, with a store that is another one each
time, and all of them use what is remembered. What is remembered is what all these calls leave behind, and where the
store stays the same, no walk notices the others.
-/

set_option autoImplicit false

namespace Stencil

/-- What may happen next: a call from outside, or a step of a walk. -/
inductive Activity where
  | resolve (name : String)
  | work (walker : Nat)
  deriving DecidableEq

structure Company where
  memo : Memo
  walks : Nat → Stage

namespace Company

def begun (context : Context) (kinds : Nat → String × Sharing) : Company where
  memo := .empty
  walks walker := Walk.beginning context .empty (kinds walker).1 (kinds walker).2

section
variable (context : Context)

/-- A step of a walk is done with what is remembered for all. -/
def step (company : Company) (store : Store) : Activity → Company
  | .resolve name => { company with memo := (context.lookUp company.memo ⟨store, name⟩).2 }
  | .work walker =>
    let next := ((company.walks walker).remembering company.memo).step context store
    { memo := next.memo, walks := Function.update company.walks walker next }

def run (company : Company) (events : List (Store × Activity)) : Company :=
  events.foldl (fun company event => company.step context event.1 event.2) company

def call? (company : Company) (store : Store) : Activity → Option Lookup
  | .resolve name => some ⟨store, name⟩
  | .work walker => (company.walks walker).asks?.map fun name => ⟨store, name⟩

def calls (company : Company) : List (Store × Activity) → List Lookup
  | [] => []
  | (store, activity) :: rest =>
    (company.call? store activity).toList ++ (company.step context store activity).calls rest

end

variable {context : Context} {company : Company}

theorem memo_step (store : Store) (activity : Activity) :
    (company.step context store activity).memo =
      context.memoAfter company.memo (company.call? store activity).toList := by
  cases activity with
  | resolve name => rfl
  | work walker =>
    have same : (company.walks walker).asks? = ((company.walks walker).remembering company.memo).asks? := by simp
    simp only [step, call?, same]
    cases asks : ((company.walks walker).remembering company.memo).asks? with
    | none => exact (Stage.memo_step_of_quiet asks).trans (Stage.memo_remembering _ _)
    | some name => rw [Stage.memo_step_of_asks asks, Stage.memo_remembering]; rfl

/-- What is remembered is what the calls leave behind, whoever makes them. -/
theorem memo_run (events : List (Store × Activity)) :
    (company.run context events).memo = context.memoAfter company.memo (company.calls context events) := by
  induction events generalizing company with
  | nil => rfl
  | cons event rest ih =>
    obtain ⟨store, activity⟩ := event
    rw [calls, Context.memoAfter_append, ← memo_step]
    exact ih

end Company

/-! ### A store that does not change -/

namespace Company

variable {context : Context} {company : Company} {store : Store} {names : Set String}
  {kinds : Nat → String × Sharing} {taken : Nat → Nat}

/-- Whether walks have taken so many steps of their own, whatever is remembered, and all of it drawn from the store. -/
structure Apart (context : Context) (store : Store) (names : Set String) (kinds : Nat → String × Sharing)
    (taken : Nat → Nat) (company : Company) : Prop where
  memo : context.Drawn store names company.memo
  walks : ∀ walker, ∃ memo, company.walks walker =
    (Walk.course context store .empty (kinds walker).2 (kinds walker).1 (taken walker)).remembering memo

theorem apart_begun : Apart context store names kinds (fun _ => 0) (begun context kinds) where
  memo := Context.drawn_empty
  walks _ := ⟨.empty, rfl⟩

section
variable (alike : context.Alike store names)
  (pulled : ∀ name, .named name ∈ Walk.pullable context store .empty → name ∈ names)
include alike pulled

theorem Apart.step (apart : Apart context store names kinds taken company) {activity : Activity}
    (known : ∀ name, activity = .resolve name → name ∈ names) :
    Apart context store names kinds (fun walker => taken walker + [activity].count (.work walker))
      (company.step context store activity) := by
  cases activity with
  | resolve name =>
    have drawn := (Context.lookUp_of_drawn alike apart.memo (known name rfl)).2
    exact ⟨drawn, by simpa [Company.step] using apart.walks⟩
  | work walker =>
    obtain ⟨memo, here⟩ := apart.walks walker
    obtain ⟨later, drawn, next⟩ :=
      Walk.step_course (kinds walker).2 alike pulled apart.memo (kinds walker).1 (taken walker)
    have moved : ((company.walks walker).remembering company.memo).step context store =
        (Walk.course context store .empty (kinds walker).2 (kinds walker).1 (taken walker + 1)).remembering later := by
      rw [here, Stage.remembering_remembering, next]
    simp only [Company.step, moved, Stage.memo_remembering]
    refine ⟨drawn, fun other => ?_⟩
    by_cases same : other = walker
    · subst same
      exact ⟨later, by simp⟩
    · simpa [Function.update_of_ne same, Ne.symm same] using apart.walks other

theorem Apart.run (apart : Apart context store names kinds taken company) {activities : List Activity}
    (known : ∀ name, .resolve name ∈ activities → name ∈ names) :
    Apart context store names kinds (fun walker => taken walker + activities.count (.work walker))
      (company.run context (activities.map (Prod.mk store))) := by
  induction activities generalizing company taken with
  | nil => exact apart
  | cons activity rest ih =>
    have here (name : String) (same : activity = .resolve name) : name ∈ names :=
      known name (same ▸ List.mem_cons_self)
    have all := ih (apart.step alike pulled here) fun name member => known name (List.mem_cons_of_mem _ member)
    have counted (walker : Nat) : taken walker + [activity].count (.work walker) + rest.count (.work walker) =
        taken walker + (activity :: rest).count (.work walker) := by
      rw [Nat.add_assoc, ← List.count_append]
      rfl
    simp only [counted] at all
    exact all

end

end Company

/-- What has been read for a path answers all later calls for paths that agree, while failures leave nothing behind.
Where the store does not change, no call or walk depends on others. -/
theorem partials_remembered (context : Context) :
    (∀ (calls : List Lookup) (call : Lookup),
      let path := context.partialPath call.name
      let answers := context.answers .empty calls
      let memo := context.memoAfter .empty calls
      (∀ other document, .ok (other, document) ∈ answers → other.agrees path = true →
        context.lookUp memo call = (.ok (path, document), memo)) ∧
      ((∀ other document, .ok (other, document) ∈ answers → other.agrees path = false) →
        (context.lookUp memo call).1 = context.consult call) ∧
      (∀ error, (context.lookUp memo call).1 = .error error → (context.lookUp memo call).2 = memo ∧
        ∀ next : Lookup, path.agrees (context.partialPath next.name) = true →
          (context.lookUp (context.lookUp memo call).2 next).1 = context.consult next) ∧
      memo.size = (Context.answeredPaths answers).toFinset.card) ∧
    (∀ (kinds : Nat → String × Sharing) (events : List (Store × Activity)),
      ((Company.begun context kinds).run context events).memo =
        context.memoAfter .empty ((Company.begun context kinds).calls context events)) ∧
    (∀ (store : Store) (names : Set String), context.Alike store names →
      (∀ calls : List Lookup, (∀ call ∈ calls, call.store = store ∧ call.name ∈ names) →
        (∀ name ∈ names, (context.lookUp (context.memoAfter .empty calls) ⟨store, name⟩).1 =
          (context.lookUp .empty ⟨store, name⟩).1) ∧
        ((∀ name, .named name ∈ Walk.pullable context store .empty → name ∈ names) →
          ∀ (modelType : String) (sharing : Sharing),
            Walk.outcome (walk context store (context.memoAfter .empty calls) modelType sharing) =
              Walk.outcome (walk context store .empty modelType sharing))) ∧
      ((∀ name, .named name ∈ Walk.pullable context store .empty → name ∈ names) →
        ∀ (kinds : Nat → String × Sharing) (walker : Nat), ∃ enough, ∀ activities : List Activity,
          (∀ name, .resolve name ∈ activities → name ∈ names) →
          let stage := ((Company.begun context kinds).run context (activities.map (Prod.mk store))).walks walker
          (enough ≤ activities.count (.work walker) → ∃ result, stage = .ended result) ∧
          ∀ result, stage = .ended result → Walk.outcome (result.bind WalkState.finish) =
            Walk.outcome (walk context store .empty (kinds walker).1 (kinds walker).2))) ∧
    (∀ files : Files, context.Alike files.store Set.univ) ∧
    ∀ disk : Disk, context.Alike disk.store {name | (context.partialPath name).text.utf8ByteSize ≤ Disk.pathLimit} := by
  refine ⟨fun calls call => ⟨?_, ?_, ?_, ?_⟩, ?_, ?_, fun files => files.alike context, fun disk => disk.alike context⟩
  · exact fun other document answered agrees => Context.lookUp_of_answered answered agrees
  · exact fun unanswered => congrArg Prod.fst (Context.lookUp_of_unanswered unanswered)
  · exact fun error failed =>
      ⟨(Context.lookUp_eq_error failed).2.2, fun next agrees => Context.lookUp_of_failed failed agrees⟩
  · exact Context.size_memoAfter calls
  · exact fun kinds events => Company.memo_run events
  · refine fun store names alike => ⟨fun calls same => ?_, fun pulled kinds walker => ?_⟩
    · -- All that is remembered has been read from this store, so that it makes no difference.
      have drawn : context.Drawn store names (context.memoAfter .empty calls) :=
        Context.drawn_memoAfter alike Context.drawn_empty same
      refine ⟨fun name known => ?_, fun pulled modelType sharing => ?_⟩
      · rw [(Context.lookUp_of_drawn alike drawn known).1, Context.lookUp_empty]
      · obtain ⟨n, result, ended⟩ : ∃ n result, Walk.course context store (context.memoAfter .empty calls) sharing
            modelType n = .ended result := Walk.exists_course_ended modelType
        obtain ⟨later, _, course⟩ := Walk.course_of_drawn sharing alike pulled drawn modelType n
        rw [Walk.walk_of_course ended]
        exact Walk.outcome_of_ended (course.symm.trans ended)
    · -- A walk is over once it has had as many turns as it takes steps by itself.
      obtain ⟨enough, result, ended⟩ : ∃ n result, Walk.course context store .empty (kinds walker).2
          (kinds walker).1 n = .ended result := Walk.exists_course_ended (kinds walker).1
      refine ⟨enough, fun activities known => ?_⟩
      have begun : Company.Apart context store names kinds (fun _ => 0) (Company.begun context kinds) :=
        Company.apart_begun
      have apart := begun.run alike pulled known
      obtain ⟨memo, here⟩ := apart.walks walker
      refine ⟨fun taken => ?_, fun result last => Walk.outcome_of_ended (here.symm.trans last)⟩
      rw [Nat.zero_add, Walk.course_of_ended _ taken ended] at here
      cases result <;> exact ⟨_, here⟩

namespace Revisit

def context : Context where
  layout := none
  main := ⟨[.directive "render 'a'" 1]⟩
  folder := ⟨"views"⟩
  extension := "haml"

def files : Files where
  entries := [(⟨"views/_a.haml"⟩, .ok "hi")]

end Revisit

open Revisit in
/-- A partial that has been looked up is found under another name when its file is gone. -/
theorem partials_remembered_revisit :
    let memo := context.memoAfter .empty [⟨files.store, "a"⟩]
    (∃ document, context.lookUp memo ⟨Files.empty.store, "./a"⟩ = (.ok (context.partialPath "./a", document), memo)) ∧
      Walk.outcome (walk context files.store memo "Page" .dedupe) =
        Walk.outcome (walk context files.store .empty "Page" .dedupe) := by
  obtain ⟨remembered, _, steady, alike, _⟩ := partials_remembered context
  refine ⟨?_, ?_⟩
  · have good : (context.consult ⟨files.store, "a"⟩).isOk = true := by decide +kernel
    have agrees : (context.partialPath "a").agrees (context.partialPath "./a") = true := by decide +kernel
    cases answer : context.consult ⟨files.store, "a"⟩ with
    | error error =>
      rw [answer] at good
      cases good
    | ok found =>
      obtain ⟨path, document⟩ := found
      rw [← Context.consult_path answer] at agrees
      have answered : .ok (path, document) ∈ context.answers .empty [⟨files.store, "a"⟩] := by
        rw [Context.answers, Context.lookUp_empty, answer]
        exact List.mem_cons_self
      exact ⟨document, (remembered _ ⟨Files.empty.store, "./a"⟩).1 path document answered agrees⟩
  · have same : ∀ call ∈ [(⟨files.store, "a"⟩ : Lookup)], call.store = files.store ∧ call.name ∈ Set.univ := by simp
    exact ((steady files.store Set.univ (alike files)).1 _ same).2 (fun _ _ => trivial) "Page" .dedupe

/-! ### A path that is too long -/

namespace Detour

def context : Context where
  layout := none
  main := ⟨[]⟩
  folder := ⟨"views"⟩
  extension := "haml"

def disk : Disk where
  files := [(["views", "d", "e", "_a.haml"], some "hi")]
  folders := []
  home := []

def name (slashes : Nat) : String := String.ofList ("d/".toList ++ (List.replicate slashes '/' ++ "e/a".toList))

theorem split_name (n : Nat) :
    (⟨name n⟩ : Path).split = (.none, (["d".toList] ++ List.replicate n [] ++ ["e".toList]) ++ ["a".toList]) := by
  have parts : Path.pieces ('d' :: '/' :: (List.replicate n '/' ++ "e/a".toList)) =
      (["d".toList] ++ List.replicate n [] ++ ["e".toList]) ++ ["a".toList] := by
    rw [Path.pieces_cons, if_neg (by decide), Path.pieces_cons, if_pos rfl, Path.pieces_replicate, List.append_assoc]
    rfl
  rw [← parts, Path.split, name, String.toList_ofList]
  rfl

theorem fileName?_name (n : Nat) : (⟨name n⟩ : Path).fileName? = some "a".toList := by
  rw [Path.fileName?, split_name, Path.dropTrivial_concat _ (by rfl), List.reverse_concat]
  rfl

theorem parent?_name (n : Nat) : (⟨name n⟩ : Path).parent? =
    some ⟨String.ofList ("d/".toList ++ (List.replicate n '/' ++ "e".toList))⟩ := by
  have parts : ["d".toList] ++ List.replicate n [] ++ ["e".toList] =
      Path.pieces ('d' :: '/' :: (List.replicate n '/' ++ "e".toList)) := by
    rw [Path.pieces_cons, if_neg (by decide), Path.pieces_cons, if_pos rfl, Path.pieces_replicate, List.append_assoc]
    rfl
  rw [Path.parent?, split_name, Path.dropTrivial_concat _ (by rfl), List.reverse_concat]
  dsimp only
  rw [List.reverse_reverse, Path.dropTrivial_concat _ (by rfl), parts, Path.assemble, Path.pieces,
    List.intercalate_splitOn]
  rfl

theorem partialPath_name (n : Nat) : (context.partialPath (name n)).text.toList =
    "views/d/".toList ++ (List.replicate n '/' ++ "e/_a.haml".toList) := by
  obtain ⟨parent, text⟩ : ∃ parent : Path, parent.text.toList = "d/".toList ++ (List.replicate n '/' ++ "e".toList) ∧
      (⟨name n⟩ : Path).parent? = some parent := ⟨_, String.toList_ofList, parent?_name n⟩
  obtain ⟨text, found⟩ := text
  have filled : parent.text ≠ "" := by
    intro empty
    rw [empty] at text
    cases text
  have file : (context.partialFile "a".toList).text.toList = "_a.haml".toList := by decide
  have folder : (context.folder.join parent).text.toList =
      "views/d/".toList ++ (List.replicate n '/' ++ "e".toList) := by
    have relative : parent.isAbsolute = false := by simp [Path.isAbsolute, text]
    rw [Path.text_join relative, text]
    rfl
  unfold Context.partialPath
  dsimp only
  rw [fileName?_name, found]
  dsimp only [Option.getD_some]
  have ends : (context.folder.join parent).text.toList.getLast? = some 'e' := by
    rw [folder, ← List.append_assoc]
    exact List.getLast?_concat
  have relative : (context.partialFile "a".toList).isAbsolute = false := by decide
  rw [if_neg filled, Path.text_join relative, Path.asFolder_of_getLast? ends (by decide), folder, file]
  simp

theorem components_name (n : Nat) : (context.partialPath (name n)).components =
    [.name "views", .name "d", .name "e", .name "_a.haml"] := by
  have parts : (context.partialPath (name n)).split =
      (.none, ["views".toList, "d".toList] ++ (List.replicate n [] ++ ["e".toList, "_a.haml".toList])) := by
    rw [Path.split, partialPath_name]
    refine Prod.ext rfl ?_
    change Path.pieces ("views/d".toList ++ '/' :: (List.replicate n '/' ++ "e/_a.haml".toList)) = _
    rw [Path.pieces_append, Path.pieces_replicate]
    rfl
  rw [Path.components, parts]
  simp [Path.isTrivial, Path.component, Path.leadComponents]

theorem consult_long {n : Nat} (long : Disk.pathLimit ≤ n) :
    context.consult ⟨disk.store, name n⟩ = .error (.partialNotFound (context.partialPath (name n))) := by
  have size : Disk.pathLimit < (context.partialPath (name n)).text.utf8ByteSize := by
    rw [← Program.byteLength_toList]
    refine Nat.lt_of_lt_of_le ?_ (Program.length_le_byteLength _)
    rw [partialPath_name]
    simp
    omega
  unfold Context.consult
  dsimp only
  generalize context.partialPath (name n) = path at size ⊢
  have gone : disk.holds path = false := by
    rw [Bool.eq_false_iff, ne_eq, Disk.holds_eq_true_iff]
    rintro ⟨place, located, _⟩
    obtain ⟨_, _, short, _⟩ := Disk.locate_eq_ok_iff.1 located
    omega
  exact if_neg (by simp [Disk.store, gone])

theorem consult_short : ∃ found, context.consult ⟨disk.store, name 0⟩ = .ok found := by
  have good : (context.consult ⟨disk.store, name 0⟩).isOk = true := by decide +kernel
  cases answer : context.consult ⟨disk.store, name 0⟩ with
  | ok found => exact ⟨found, rfl⟩
  | error error => rw [answer] at good; cases good

theorem lookUp_long (n : Nat) :
    ∃ document, (context.lookUp (context.memoAfter .empty [⟨disk.store, name 0⟩]) ⟨disk.store, name n⟩).1 =
      .ok (context.partialPath (name n), document) := by
  obtain ⟨⟨path, document⟩, answer⟩ := consult_short
  have answered : .ok (path, document) ∈ context.answers .empty [⟨disk.store, name 0⟩] := by
    rw [Context.answers, Context.lookUp_empty, answer]
    exact List.mem_cons_self
  have agrees : path.agrees (context.partialPath (name n)) = true := by
    rw [Path.agrees_iff, Context.consult_path answer, components_name, components_name]
  have again : context.lookUp (context.memoAfter .empty [⟨disk.store, name 0⟩]) ⟨disk.store, name n⟩ =
      (.ok (context.partialPath (name n), document), context.memoAfter .empty [⟨disk.store, name 0⟩]) :=
    Context.lookUp_of_answered answered agrees
  exact ⟨document, congrArg Prod.fst again⟩

end Detour

open Detour in
/-- On a disk that does not change, a call is answered or not, depending on the calls before it. -/
theorem lookUp_of_history :
    (context.lookUp .empty ⟨disk.store, name Disk.pathLimit⟩).1 =
        .error (.partialNotFound (context.partialPath (name Disk.pathLimit))) ∧
      ∃ document, (context.lookUp (context.memoAfter .empty [⟨disk.store, name 0⟩])
        ⟨disk.store, name Disk.pathLimit⟩).1 = .ok (context.partialPath (name Disk.pathLimit), document) :=
  ⟨(Context.lookUp_empty _).trans (consult_long (Nat.le_refl _)), lookUp_long Disk.pathLimit⟩

end Stencil
