import Stencil.Proofs.Program.Functions
import Stencil.Proofs.Program.Moving

/-! A program is surveyed function by function.

Reading goes on at the next `fn` behind a broken function, and no reader takes an `fn`. So the survey of some
tokens that end with a closing brace is the same, only moved, wherever they stand and whatever functions follow
them. All that it tells is about functions that are named in the tokens, and about places of the tokens.
-/

set_option autoImplicit false

namespace Stencil.Program

def Finding.move (distance : Nat) (finding : Finding) : Finding :=
  { finding with fault := finding.fault.move distance }

def Survey.move (distance : Nat) (s : Survey) : Survey where
  declarations := s.declarations.map (Declaration.move distance)
  findings := s.findings.map (Finding.move distance)
  headers := s.headers.map fun (name, start) => (name, start + distance)

def StartsFunction (more : List Lexeme) : Prop := ∀ t ∈ more.head?, t.token = .keyword .fn

section

variable {functions : List Function} {distance : Nat} {more all short : List Lexeme}

/-! ### One function -/

theorem span_of_expectName {expected : Expected} {word : String × Span}
    (read : (expectName expected short).outcome = .ok word) : ∃ t ∈ short, t.span = word.2 := by
  unfold expectName expectToken at read
  split at read
  · cases read
  · rename_i t rest
    split at read
    · rename_i named
      cases read
      exact ⟨t, List.mem_cons_self, span_of_nameOf? named⟩
    · cases read

theorem Carried.readKind (remains : Remains more all short) :
    Carried distance more all id (Remains more all) (readKind short)
      (Program.readKind (onward distance more short)) := by
  unfold Program.readKind
  apply (Carried.expectName remains).andThen
  intro word rest _ _ rest_remains read
  dsimp only
  split
  · exact .mk_done _ rest_remains.part rest_remains
  · obtain ⟨t, member, same⟩ := span_of_expectName read
    exact .mk_refuse rest_remains.part
      (Fault.isAt_some ⟨t, remains.part.mem member, same⟩ fun _ same => by cases same)

variable (functions distance) in
/-- A function ends with the last closing brace at the latest. -/
theorem Carried.readFunction (name : String) (start : Nat) (remains : Remains more all short) :
    Carried distance more all (Declaration.move distance) (fun _ => True)
      (readFunction functions name start short)
      (Program.readFunction functions name (start + distance) (onward distance more short)) := by
  unfold Program.readFunction
  -- One step of the head after the other, then the body and the brace that closes it.
  apply (Carried.expectSymbol remains (by decide)).andThen
  intro _ _ _ _ remains _
  apply (Carried.expectName remains).andThen
  intro parameter _ _ _ remains _
  apply (Carried.expectSymbol remains (by decide)).andThen
  intro _ _ _ _ remains _
  apply (Carried.expectSymbol remains (by decide)).andThen
  intro _ _ _ _ remains _
  apply (Carried.readKind remains).andThen
  intro kind _ _ _ remains _
  apply (Carried.expectSymbol remains (by decide)).andThen
  intro _ _ _ _ remains _
  apply (readLevel_travels _ distance more all 0 _ remains).andThen
  intro body rest _ _ remains _
  have closes : Carried distance more all (Span.move distance) (fun _ => True) (Program.expectSymbol .closeBrace rest)
      (Program.expectSymbol .closeBrace (onward distance more rest)) := by
    refine expectToken (fun t => ?_) remains fun _ _ _ _ _ => trivial
    show (if t.token.isSymbol .closeBrace then some (t.span.move distance) else none) = _
    split <;> rfl
  exact closes.map fun _ => rfl

theorem surveyOf_carried {long : List Lexeme} {r : Reading short Declaration} {s : Reading long Declaration}
    {leaves : List Lexeme → Prop} (carried : Carried distance more all (Declaration.move distance) leaves r s)
    (name : String) (start : Nat) :
    surveyOf name (start + distance) s = (surveyOf name start r).move distance := by
  obtain ⟨rNotes, rOutcome, rRest, rLe⟩ := r
  obtain ⟨sNotes, sOutcome, sRest, sLe⟩ := s
  obtain ⟨notes, outcome, _⟩ := carried
  dsimp only at notes outcome
  subst notes outcome
  cases rOutcome with
  | error fault =>
    simp [surveyOf, Survey.move, Finding.move, Except.map, Except.mapError]
  | ok d =>
    simp [surveyOf, Survey.move, Finding.move, Except.map, Except.mapError]

/-! ### Going on behind it -/

theorem nextFunction_onward (next : StartsFunction more) (short : List Lexeme) :
    nextFunction (onward distance more short) = onward distance more (nextFunction short) := by
  induction short with
  | nil =>
    show nextFunction more = more
    cases more with
    | nil => rfl
    | cons t rest =>
      rw [nextFunction, List.dropWhile_cons_of_neg]
      simp [next t rfl, Token.isKeyword]
  | cons t rest ih =>
    unfold nextFunction at *
    rw [onward_cons, List.dropWhile_cons, List.dropWhile_cons, Lexeme.token_move]
    split
    · exact ih
    · rfl

theorem resume_carried {α : Type} {moved : α → α} {leaves : List Lexeme → Prop} {long : List Lexeme}
    {r : Reading short α} {s : Reading long α} (carried : Carried distance more all moved leaves r s)
    (next : StartsFunction more) : resume s = onward distance more (resume r) := by
  obtain ⟨rNotes, rOutcome, rRest, rLe⟩ := r
  obtain ⟨sNotes, sOutcome, sRest, sLe⟩ := s
  obtain ⟨_, outcome, rest, _⟩ := carried
  dsimp only at outcome rest
  subst outcome rest
  cases rOutcome with
  | error fault => exact nextFunction_onward next rRest
  | ok a => rfl

theorem resume_suffix {α : Type} {moved : α → α} {leaves : List Lexeme → Prop} {long : List Lexeme}
    {r : Reading short α} {s : Reading long α} (carried : Carried distance more all moved leaves r s) :
    resume r <:+ all := by
  unfold resume
  split
  · exact carried.part
  · exact (List.dropWhile_suffix _).trans carried.part

theorem Sealed.or_nil {rest : List Lexeme} (closed : short = [] ∨ Sealed more short) (part : rest <:+ short) :
    rest = [] ∨ Sealed more rest := by
  by_cases none : rest = []
  · exact .inl none
  · rcases closed with rfl | closed
    · exact .inl (List.suffix_nil.mp part)
    · exact .inr (closed.suffix part none)

theorem Survey.append_move (a b : Survey) : (a.append b).move distance = (a.move distance).append (b.move distance) := by
  simp [append, move]

theorem Survey.append_assoc (a b c : Survey) : (a.append b).append c = a.append (b.append c) := by
  simp [append]

theorem isSymbol_of_isKeyword {t : Token} {word : Keyword} (keyword : t.isKeyword word) (sign : Symbol) :
    t ≠ .symbol sign := by
  rintro rfl
  cases keyword

variable (functions distance) in
/-- Tokens that end with a closing brace bring the same to light wherever they stand, and what follows them is
surveyed by itself. -/
theorem survey_onward (next : StartsFunction more) (closed : short = [] ∨ Sealed more short) :
    survey functions (onward distance more short) =
      ((survey functions short).move distance).append (survey functions more) := by
  induction short using survey.induct functions with
  | case1 =>
    rw [survey.eq_def functions []]
    rfl
  | case2 t fn =>
    -- An `fn` at the very end is one with nothing behind it.
    have closed := (closed.resolve_left (List.cons_ne_nil _ _)).tail (isSymbol_of_isKeyword fn _)
    obtain rfl := closed.resolve_right (by simp)
    rw [onward_cons, closed.onward_nil, survey.eq_def functions [t], survey.eq_def functions [t.move distance],
      survey.eq_def functions []]
    simp only [Lexeme.token_move, fn, if_true]
    rfl
  | case3 t fn n rest unnamed ih =>
    have ih := ih (Sealed.or_nil closed ((List.dropWhile_suffix _).trans (List.suffix_cons t _)))
    rw [onward_cons, onward_cons, survey.eq_def functions (t :: n :: rest),
      survey.eq_def functions (t.move distance :: _)]
    simp only [Lexeme.token_move, fn, if_true, nameOf?_move, unnamed, Option.map_none]
    rw [← onward_cons, nextFunction_onward next, ih, Survey.append_move, Survey.append_assoc]
    rfl
  | case4 t fn n rest name span named =>
    rename_i reading ih
    have closed := closed.resolve_left (List.cons_ne_nil _ _)
    have inner := (closed.tail (isSymbol_of_isKeyword fn _)).tail fun brace => by simp [brace, nameOf?] at named
    have carried := Carried.readFunction functions distance name t.span.start ⟨List.suffix_rfl, inner⟩
    have ih := ih (Sealed.or_nil (.inr inner) (resume_suffix carried))
    rw [onward_cons, onward_cons, survey.eq_def functions (t :: n :: rest),
      survey.eq_def functions (t.move distance :: _)]
    simp only [Lexeme.token_move, fn, if_true, nameOf?_move, named, Option.map_some]
    have start : (t.move distance).span.start = t.span.start + distance := rfl
    rw [start, resume_carried carried next, ih, Survey.append_move, Survey.append_assoc,
      surveyOf_carried carried]
  | case5 t after other ih =>
    have ih := ih (Sealed.or_nil closed ((List.dropWhile_suffix _).trans (List.suffix_cons t _)))
    rw [onward_cons, survey.eq_def functions (t :: after), survey.eq_def functions (t.move distance :: _)]
    simp only [Lexeme.token_move, other, Bool.false_eq_true, if_false]
    rw [nextFunction_onward next, ih, Survey.append_move, Survey.append_assoc]
    rfl

end

/-! ### What a survey can be about -/

/-- The names that stand behind an `fn`. -/
def functionNames : List Token → List String
  | .keyword .fn :: .name name :: rest => name :: functionNames rest
  | _ :: rest => functionNames rest
  | [] => []

def namedIn (text : List Char) : List String := functionNames (tokensOf (marks text))

theorem functionNames_cons_sublist (t : Token) (rest : List Token) :
    (functionNames rest).Sublist (functionNames (t :: rest)) := by
  rw [functionNames.eq_def (t :: rest)]
  split
  · rename_i name after same
    obtain ⟨_, rfl⟩ := List.cons.inj same
    rw [functionNames]
    · exact List.sublist_cons_self _ _
    · rintro _ _ ⟨⟩
  · rename_i after _ same
    obtain ⟨_, rfl⟩ := List.cons.inj same
    exact List.Sublist.refl _
  · rename_i same
    cases same

theorem functionNames_sublist {first rest : List Token} (part : rest <:+ first) :
    (functionNames rest).Sublist (functionNames first) := by
  obtain ⟨before, rfl⟩ := part
  induction before with
  | nil => exact List.Sublist.refl _
  | cons t before ih => exact ih.trans (functionNames_cons_sublist t _)

theorem functionNames_cons {t : Token} {rest : List Token}
    (other : ∀ name after, t = .keyword .fn → rest = .name name :: after → False) :
    functionNames (t :: rest) = functionNames rest := by
  rw [functionNames]
  exact other

theorem functionNames_append {first rest : List Token} (last : first.getLast? ≠ some (.keyword .fn)) :
    functionNames (first ++ rest) = functionNames first ++ functionNames rest := by
  fun_induction functionNames first with
  | case1 name after ih =>
    rw [List.cons_append, List.cons_append, functionNames, ih, List.cons_append]
    cases after with
    | nil => simp
    | cons t after => simpa using last
  | case2 t after other ih =>
    cases after with
    | nil =>
      -- The last token of the first part is no `fn` that could name something in the second.
      refine functionNames_cons fun name after fn _ => ?_
      simp [fn] at last
    | cons u after =>
      rw [List.cons_append, functionNames_cons, ih (by simpa using last)]
      intro name more fn same
      obtain ⟨rfl, _⟩ := List.cons.inj same
      exact other name after fn rfl
  | case3 => rfl

theorem functionNames_concat (tokens : List Token) {t : Token} (other : ∀ name, t ≠ .name name) :
    functionNames (tokens ++ [t]) = functionNames tokens := by
  fun_induction functionNames tokens with
  | case1 name after ih => rw [List.cons_append, List.cons_append, functionNames, ih]
  | case2 u after alone ih =>
    rw [List.cons_append, functionNames_cons, ih]
    intro name more fn same
    cases after with
    | nil => exact other name (List.cons.inj same).1
    | cons v after =>
      obtain ⟨rfl, _⟩ := List.cons.inj same
      exact alone name after fn rfl
  | case3 => exact functionNames_cons fun _ _ _ same => List.cons_ne_nil _ _ same.symm

theorem functionNames_unitTokens (unit : CodeUnit) :
    functionNames (unitTokens unit) =
      unit.name :: functionNames ((tokenize unit.source).1.map Lexeme.token) := by
  rw [unitTokens, ← List.append_assoc, functionNames_concat _ (fun _ same => by cases same)]
  simp [CodeUnit.head, functionNames]

/-- Whether a survey tells only of functions that some tokens name, in their order, and of places of the tokens. -/
structure Survey.StemsFrom (tokens : List Lexeme) (s : Survey) : Prop where
  headers : (s.headers.map Prod.fst).Sublist (functionNames (tokens.map Lexeme.token))
  declared : (s.declarations.map Declaration.name).Sublist (s.headers.map Prod.fst)
  found : ∀ finding ∈ s.findings, ∀ unit ∈ finding.unit, unit ∈ s.headers.map Prod.fst
  places : ∀ finding ∈ s.findings, finding.fault.IsAt tokens

section

variable {tokens rest : List Lexeme}

theorem Fault.IsAt.mono {fault : Fault} (at_ : fault.IsAt rest) (part : rest <:+ tokens) : fault.IsAt tokens := by
  refine ⟨fun span is => ?_, at_.single⟩
  obtain ⟨t, member, same⟩ := at_.place span is
  exact ⟨t, part.mem member, same⟩

theorem Survey.StemsFrom.append {a b : Survey} (first : a.StemsFrom tokens) (last : b.StemsFrom rest)
    (part : rest <:+ tokens)
    (names : (a.headers.map Prod.fst ++ functionNames (rest.map Lexeme.token)).Sublist
      (functionNames (tokens.map Lexeme.token))) : (a.append b).StemsFrom tokens where
  headers := by
    rw [Survey.append, List.map_append]
    exact (last.headers.append_left _).trans names
  declared := by
    simp only [Survey.append, List.map_append]
    exact first.declared.append last.declared
  found := by
    simp only [Survey.append, List.map_append, List.mem_append]
    rintro finding (here | later) unit is
    · exact .inl (first.found finding here unit is)
    · exact .inr (last.found finding later unit is)
  places := by
    simp only [Survey.append, List.mem_append]
    rintro finding (here | later)
    · exact first.places finding here
    · exact (last.places finding later).mono part

theorem strayFault_stems {fault : Fault} (at_ : fault.IsAt tokens) : (strayFault fault).StemsFrom tokens where
  headers := List.nil_sublist _
  declared := .slnil
  found := by simp [strayFault]
  places := by simpa [strayFault] using at_

theorem name_of_readFunction {functions : List Function} {name : String} {start : Nat} {d : Declaration}
    (read : (readFunction functions name start tokens).outcome = .ok d) : d.name = name := by
  unfold readFunction at read
  iterate 7 obtain ⟨_, -, read⟩ := ok_of_andThen read
  obtain ⟨_, _, rfl⟩ := ok_of_map read
  rfl

theorem surveyOf_stems {f n : Lexeme} {name : String} {functions : List Function}
    (fn : f.token = .keyword .fn) (named : n.token = .name name) :
    (surveyOf name f.span.start (readFunction functions name f.span.start rest)).StemsFrom (f :: n :: rest) := by
  have carried := Carried.readFunction functions 0 name f.span.start
    ⟨List.suffix_rfl, (.inl rfl : Sealed [] rest)⟩
  have part : rest <:+ f :: n :: rest := ⟨[f, n], rfl⟩
  have headers : [name].Sublist (functionNames ((f :: n :: rest).map Lexeme.token)) := by
    rw [List.map_cons, List.map_cons, fn, named, functionNames]
    exact (List.nil_sublist _).cons_cons name
  unfold surveyOf
  dsimp only
  split
  · rename_i d read
    refine ⟨headers, ?_, ?_, ?_⟩
    · simp [name_of_readFunction read]
    · simp only [List.mem_map]
      rintro _ ⟨fault, _, rfl⟩ unit ⟨⟩
      simp
    · simp only [List.forall_mem_map]
      exact fun fault noted => (carried.noted fault noted).mono part
  · rename_i fault read
    refine ⟨headers, ?_, ?_, ?_⟩
    · exact List.nil_sublist _
    · simp only [List.mem_map]
      rintro _ ⟨fault, _, rfl⟩ unit ⟨⟩
      simp
    · simp only [List.forall_mem_map, List.mem_append, List.mem_singleton]
      rintro other (noted | rfl)
      · exact (carried.noted other noted).mono part
      · exact (carried.fails other read).mono part

theorem survey_stems (functions : List Function) (tokens : List Lexeme) :
    (survey functions tokens).StemsFrom tokens := by
  induction tokens using survey.induct functions with
  | case1 =>
    rw [survey]
    refine ⟨List.nil_sublist _, .slnil, ?_, ?_⟩ <;> simp [Survey.empty]
  | case2 t fn =>
    rw [survey, if_pos fn]
    exact strayFault_stems (Fault.isAt_unexpected .functionName (List.nil_suffix))
  | case3 t fn n rest unnamed ih =>
    have part := (List.dropWhile_suffix (fun t => !t.token.isKeyword .fn)).trans (List.suffix_cons t (n :: rest))
    rw [survey, if_pos fn]
    simp only [unnamed]
    refine (strayFault_stems ?_).append ih part ?_
    · exact Fault.isAt_unexpected .functionName (List.suffix_cons t _)
    · exact functionNames_sublist (part.map _)
  | case4 t fn n rest name span named =>
    rename_i reading ih
    have fn' := isKeyword_iff.mp fn
    have named' := token_of_nameOf? named
    have carried := Carried.readFunction functions 0 name t.span.start
      ⟨List.suffix_rfl, (.inl rfl : Sealed [] rest)⟩
    have part := resume_suffix carried
    rw [survey_function functions rest fn' named']
    refine (surveyOf_stems fn' named').append ih (part.trans ⟨[t, n], rfl⟩) ?_
    rw [List.map_cons, List.map_cons, fn', named', functionNames]
    -- A function has one header, be it broken or not.
    have header : (surveyOf name t.span.start (readFunction functions name t.span.start rest)).headers =
        [(name, t.span.start)] := by
      unfold surveyOf
      dsimp only
      split <;> rfl
    rw [header]
    exact (functionNames_sublist (part.map _)).cons_cons name
  | case5 t after other ih =>
    have part := (List.dropWhile_suffix (fun t => !t.token.isKeyword .fn)).trans (List.suffix_cons t after)
    rw [survey.eq_def functions (t :: after)]
    simp only [other, Bool.false_eq_true, if_false]
    refine (strayFault_stems ?_).append ih part ?_
    · exact Fault.isAt_unexpected _ List.suffix_rfl
    · exact functionNames_sublist (part.map _)

end

end Stencil.Program
