import Stencil.Program.Declarations
import Stencil.Proofs.Program.Reading

/-! Functions are read the same elsewhere in a program.

No reader goes past a closing brace but for the one that ends a function, and none looks at where a token stands
but to note a fault. So tokens that end with a closing brace give the same, only moved, wherever they stand and
whatever follows them; and all faults are at tokens that have been given.
-/

set_option autoImplicit false

namespace Stencil

def Span.move (distance : Nat) (span : Span) : Span := ⟨span.start + distance, span.stop + distance⟩

namespace Program

def Lexeme.move (distance : Nat) (t : Lexeme) : Lexeme := { t with span := t.span.move distance }

@[simp] theorem Lexeme.token_move (distance : Nat) (t : Lexeme) : (t.move distance).token = t.token := rfl

/-- A fault at the end of the text stays there. -/
def Fault.move (distance : Nat) (fault : Fault) : Fault := { fault with span := fault.span.map (Span.move distance) }

def Declaration.move (distance : Nat) (d : Declaration) : Declaration := { d with span := d.span.move distance }

/-- Whether a fault is one of reading some tokens: at one of them or at the end of the text, and none of a name
given twice. -/
structure Fault.IsAt (tokens : List Lexeme) (fault : Fault) : Prop where
  place : ∀ span ∈ fault.span, ∃ t ∈ tokens, t.span = span
  single : ∀ name, fault.problem ≠ .duplicateFunction name

/-- Whether nothing is to follow some tokens, or they end with a closing brace. -/
def Sealed (more tokens : List Lexeme) : Prop :=
  more = [] ∨ ∃ brace, tokens.getLast? = some brace ∧ brace.token = .symbol .closeBrace

structure Remains (more all tokens : List Lexeme) : Prop where
  part : tokens <:+ all
  closed : Sealed more tokens

/-- Some tokens, moved, with more behind them. -/
def onward (distance : Nat) (more tokens : List Lexeme) : List Lexeme := tokens.map (Lexeme.move distance) ++ more

/-- The second of two readings is the first one moved, with more behind what it leaves, which is as `leaves` says. All
faults are at tokens of `all`. -/
structure Carried {α : Type} (distance : Nat) (more all : List Lexeme) (moved : α → α)
    (leaves : List Lexeme → Prop) {short long : List Lexeme} (r : Reading short α) (s : Reading long α) : Prop where
  notes : s.notes = r.notes.map (Fault.move distance)
  outcome : s.outcome = (r.outcome.map moved).mapError (Fault.move distance)
  rest : s.rest = onward distance more r.rest
  part : r.rest <:+ all
  left : ∀ a, r.outcome = .ok a → leaves r.rest
  noted : ∀ fault ∈ r.notes, fault.IsAt all
  fails : ∀ fault, r.outcome = .error fault → fault.IsAt all

section

variable {distance : Nat} {more all short : List Lexeme}

theorem Fault.isAt_some {span : Span} {problem : Problem} (here : ∃ t ∈ all, t.span = span)
    (single : ∀ name, problem ≠ .duplicateFunction name) : (⟨some span, problem⟩ : Fault).IsAt all := by
  refine ⟨fun other is => ?_, single⟩
  obtain rfl := Option.some.inj is
  exact here

theorem Fault.isAt_unexpected (expected : Expected) (part : short <:+ all) :
    (Fault.unexpected expected short).IsAt all := by
  have single : ∀ found name, Problem.unexpected expected found ≠ .duplicateFunction name := by
    intro found name same
    cases same
  cases short with
  | nil =>
    refine ⟨fun span is => ?_, single none⟩
    cases is
  | cons t rest => exact Fault.isAt_some ⟨t, part.mem List.mem_cons_self, rfl⟩ (single (some t.token))

theorem onward_cons (t : Lexeme) (rest : List Lexeme) :
    onward distance more (t :: rest) = t.move distance :: onward distance more rest := rfl

theorem Sealed.onward_nil (closed : Sealed more []) : onward distance more [] = [] := by
  rcases closed with none | ⟨brace, last, _⟩
  · rw [onward, List.map_nil, List.nil_append, none]
  · cases last

theorem Sealed.suffix {rest : List Lexeme} (closed : Sealed more short) (part : rest <:+ short) (some : rest ≠ []) :
    Sealed more rest := by
  rcases closed with none | ⟨brace, last, closes⟩
  · exact .inl none
  · obtain ⟨before, rfl⟩ := part
    refine .inr ⟨brace, ?_, closes⟩
    rw [List.getLast?_append, List.getLast?_eq_some_getLast some, Option.some_or] at last
    rw [List.getLast?_eq_some_getLast some, last]

theorem Sealed.tail {t : Lexeme} (closed : Sealed more (t :: short)) (other : t.token ≠ .symbol .closeBrace) :
    Sealed more short := by
  cases short with
  | nil =>
    rcases closed with none | ⟨brace, last, closes⟩
    · exact .inl none
    · cases last
      exact absurd closes other
  | cons u rest => exact closed.suffix (List.suffix_cons t _) (List.cons_ne_nil u rest)

theorem Remains.mem {t : Lexeme} (remains : Remains more all (t :: short)) : t ∈ all :=
  remains.part.mem List.mem_cons_self

theorem Remains.tail {t : Lexeme} (remains : Remains more all (t :: short))
    (other : t.token ≠ .symbol .closeBrace) : Remains more all short :=
  ⟨(List.suffix_cons t short).trans remains.part, remains.closed.tail other⟩

variable (distance) in
theorem nameOf?_move (t : Lexeme) :
    nameOf? (t.move distance) = (nameOf? t).map fun name => (name.1, name.2.move distance) := by
  unfold nameOf? Lexeme.move
  cases t.token <;> rfl

theorem span_of_nameOf? {t : Lexeme} {name : String} {span : Span} (named : nameOf? t = some (name, span)) :
    t.span = span := by
  unfold nameOf? at named
  split at named
  · cases named
    rfl
  · cases named

namespace Carried

variable {α β : Type} {moved : α → α} {moved' : β → β} {leaves leaves' : List Lexeme → Prop} {long : List Lexeme}

theorem mk_ok {rest : List Lexeme} (a : α) (part : rest <:+ all) (left : leaves rest)
    (h : rest.length ≤ short.length) (k : (onward distance more rest).length ≤ long.length) :
    Carried distance more all moved leaves (⟨[], .ok a, rest, h⟩ : Reading short α)
      (⟨[], .ok (moved a), onward distance more rest, k⟩ : Reading long α) := by
  refine ⟨rfl, rfl, rfl, part, fun _ _ => left, fun _ member => absurd member List.not_mem_nil, fun _ same => ?_⟩
  cases same

theorem mk_done (a : α) (part : short <:+ all) (left : leaves short) :
    Carried distance more all moved leaves (Reading.done short a)
      (Reading.done (onward distance more short) (moved a)) :=
  mk_ok a part left _ _

theorem mk_error {notes : List Fault} {fault : Fault} {rest : List Lexeme} {h : rest.length ≤ short.length}
    {k : (onward distance more rest).length ≤ long.length} (part : rest <:+ all)
    (noted : ∀ note ∈ notes, note.IsAt all) (at_ : fault.IsAt all) :
    Carried distance more all moved leaves (⟨notes, .error fault, rest, h⟩ : Reading short α)
      (⟨notes.map (Fault.move distance), .error (fault.move distance), onward distance more rest, k⟩ :
        Reading long α) := by
  refine ⟨rfl, rfl, rfl, part, fun _ same => ?_, noted, fun _ same => ?_⟩
  · cases same
  · cases same
    exact at_

theorem mk_refuse {fault : Fault} (part : short <:+ all) (at_ : fault.IsAt all) :
    Carried distance more all moved leaves (Reading.refuse short fault)
      (Reading.refuse (onward distance more short) (fault.move distance)) :=
  mk_error part (fun _ member => absurd member List.not_mem_nil) at_

theorem mk_fail (remains : Remains more all short) (expected : Expected) :
    Carried distance more all moved leaves (Reading.fail short expected)
      (Reading.fail (onward distance more short) expected) := by
  have same : Fault.unexpected expected (onward distance more short) =
      (Fault.unexpected expected short).move distance := by
    cases short with
    | nil => rw [remains.closed.onward_nil]; rfl
    | cons t rest => rfl
  unfold Reading.fail
  rw [same]
  exact mk_refuse remains.part (Fault.isAt_unexpected expected remains.part)

theorem widen {t u : Lexeme} {r : Reading short α} {s : Reading long α}
    (carried : Carried distance more all moved leaves r s) (h : short.length ≤ (t :: short).length)
    (k : long.length ≤ (u :: long).length) : Carried distance more all moved leaves (r.widen h) (s.widen k) :=
  ⟨carried.notes, carried.outcome, carried.rest, carried.part, carried.left, carried.noted, carried.fails⟩

theorem andThen {r : Reading short α} {s : Reading long α} (carried : Carried distance more all moved leaves r s)
    {f : α → (rest : List Lexeme) → rest.length ≤ short.length → Reading rest β}
    {g : α → (rest : List Lexeme) → rest.length ≤ long.length → Reading rest β}
    (continues : ∀ a rest h k, leaves rest → r.outcome = .ok a →
      Carried distance more all moved' leaves' (f a rest h) (g (moved a) (onward distance more rest) k)) :
    Carried distance more all moved' leaves' (r.andThen f) (s.andThen g) := by
  obtain ⟨rNotes, rOutcome, rRest, rLe⟩ := r
  obtain ⟨sNotes, sOutcome, sRest, sLe⟩ := s
  obtain ⟨notes, outcome, rest, part, left, noted, fails⟩ := carried
  dsimp only at notes outcome rest part left noted fails
  subst notes outcome rest
  cases rOutcome with
  | error fault => exact mk_error part noted (fails fault rfl)
  | ok a =>
    have next := continues a rRest rLe sLe (left a rfl) rfl
    refine ⟨?_, next.outcome, next.rest, next.part, next.left, fun fault member => ?_, next.fails⟩
    · exact (congrArg _ next.notes).trans List.map_append.symm
    · exact (List.mem_append.mp member).elim (noted fault) (next.noted fault)

theorem map {r : Reading short α} {s : Reading long α} (carried : Carried distance more all moved leaves r s)
    {f g : α → β} (keeps : ∀ a, g (moved a) = moved' (f a)) :
    Carried distance more all moved' leaves (r.map f) (s.map g) := by
  obtain ⟨rNotes, rOutcome, rRest, rLe⟩ := r
  obtain ⟨sNotes, sOutcome, sRest, sLe⟩ := s
  obtain ⟨notes, outcome, rest, part, left, noted, fails⟩ := carried
  dsimp only at notes outcome rest part left noted fails
  subst notes outcome rest
  cases rOutcome with
  | error fault => exact mk_error part noted (fails fault rfl)
  | ok a =>
    refine ⟨rfl, congrArg Except.ok (keeps a), rfl, part, fun _ _ => left a rfl, noted, fun _ same => ?_⟩
    cases same

theorem note {r : Reading short α} {s : Reading long α} (carried : Carried distance more all moved leaves r s)
    {faults faults' : List Fault} (same : faults' = faults.map (Fault.move distance))
    (at_ : ∀ fault ∈ faults, fault.IsAt all) :
    Carried distance more all moved leaves (r.note faults) (s.note faults') := by
  refine ⟨?_, carried.outcome, carried.rest, carried.part, carried.left, fun fault member => ?_, carried.fails⟩
  · simp only [Reading.note, List.map_append, carried.notes, same]
  · exact (List.mem_append.mp member).elim (carried.noted fault) (at_ fault)

theorem expectToken {expected : Expected} {select : Lexeme → Option α}
    (alike : ∀ t : Lexeme, select (t.move distance) = (select t).map moved) (remains : Remains more all short)
    (leaves_ : ∀ t a rest, short = t :: rest → select t = some a → leaves rest) :
    Carried distance more all moved leaves (expectToken expected select short)
      (Program.expectToken expected select (onward distance more short)) := by
  cases short with
  | nil =>
    have fails : Carried distance more all moved leaves (Reading.fail [] expected)
        (Reading.fail (onward distance more []) expected) := mk_fail remains expected
    rw [remains.closed.onward_nil] at fails ⊢
    exact fails
  | cons t rest =>
    have part := (List.suffix_cons t rest).trans remains.part
    rw [onward_cons]
    simp only [Program.expectToken, alike]
    cases taken : select t with
    | none => exact mk_fail remains expected
    | some a => exact mk_ok a part (leaves_ t a rest rfl taken) _ _

theorem expectSymbol {sign : Symbol} (remains : Remains more all short) (other : sign ≠ .closeBrace) :
    Carried distance more all (Span.move distance) (Remains more all) (expectSymbol sign short)
      (Program.expectSymbol sign (onward distance more short)) := by
  refine expectToken (fun t => ?_) remains ?_
  · show (if t.token.isSymbol sign then some (t.span.move distance) else none) = _
    split <;> rfl
  · rintro t a rest rfl taken
    refine remains.tail fun brace => ?_
    rw [brace] at taken
    simp [Token.isSymbol, Ne.symm other] at taken

theorem expectName {expected : Expected} (remains : Remains more all short) :
    Carried distance more all (fun name => (name.1, name.2.move distance)) (Remains more all)
      (expectName expected short) (Program.expectName expected (onward distance more short)) := by
  refine expectToken (nameOf?_move distance) remains ?_
  rintro t a rest rfl taken
  refine remains.tail fun brace => ?_
  simp [nameOf?, brace] at taken

end Carried

variable (distance) in
theorem startsWith_onward (closed : Sealed more short) (sign : Symbol) :
    startsWith sign (onward distance more short) = startsWith sign short := by
  cases short with
  | nil => rw [closed.onward_nil]
  | cons t rest => rfl

variable (distance) in
theorem resolveName_move (scope : Scope) (name : String) (span : Span) :
    (scope.resolveName name (span.move distance)).1 = (scope.resolveName name span).1 ∧
      (scope.resolveName name (span.move distance)).2 =
        (scope.resolveName name span).2.map (Fault.move distance) := by
  unfold Scope.resolveName
  split
  · exact ⟨rfl, rfl⟩
  · exact ⟨rfl, rfl⟩

theorem isAt_of_resolveName {scope : Scope} {name : String} {span : Span} {fault : Fault}
    (here : ∃ t ∈ all, t.span = span) (member : fault ∈ (scope.resolveName name span).2) : fault.IsAt all := by
  unfold Scope.resolveName at member
  split at member
  · cases member
  · rw [List.mem_singleton.mp member]
    exact Fault.isAt_some here fun _ same => by cases same

variable (distance) in
theorem resolveCall_move (scope : Scope) (name : String) (span : Span) (arguments : List Expr) :
    (scope.resolveCall name (span.move distance) arguments).1 = (scope.resolveCall name span arguments).1 ∧
      (scope.resolveCall name (span.move distance) arguments).2 =
        (scope.resolveCall name span arguments).2.map (Fault.move distance) := by
  unfold Scope.resolveCall
  split
  · split
    · exact ⟨rfl, rfl⟩
    · exact ⟨rfl, rfl⟩
  · exact ⟨rfl, rfl⟩

theorem isAt_of_resolveCall {scope : Scope} {name : String} {span : Span} {arguments : List Expr} {fault : Fault}
    (here : ∃ t ∈ all, t.span = span) (member : fault ∈ (scope.resolveCall name span arguments).2) :
    fault.IsAt all := by
  unfold Scope.resolveCall at member
  split at member
  · split at member
    · cases member
    · rw [List.mem_singleton.mp member]
      exact Fault.isAt_some here fun _ same => by cases same
  · rw [List.mem_singleton.mp member]
    exact Fault.isAt_some here fun _ same => by cases same

end

/-- A reader of expressions reads the same elsewhere, and stops in front of the last closing brace. -/
def Travels {α : Type} (distance : Nat) (more all : List Lexeme)
    (read : (tokens : List Lexeme) → Reading tokens α) (short : List Lexeme) : Prop :=
  Remains more all short → Carried distance more all id (Remains more all) (read short) (read (onward distance more short))

section

variable (scope : Scope) (distance : Nat) (more all : List Lexeme)

theorem readLevel_travels : ∀ level short, Travels distance more all (readLevel scope level) short := by
  -- All readers at once, along their common recursion, with one case for each branch of each reader.
  refine (readLevel.mutual_induct
    (fun level => Travels distance more all (readLevel scope level))
    (Travels distance more all (readUnary scope))
    (fun e => Travels distance more all (readSuffixes scope e))
    (Travels distance more all (readPrimary scope))
    (Travels distance more all (readArguments scope))
    (Travels distance more all (readMoreArguments scope))
    (fun level left => Travels distance more all (readOperators scope level left))
    ?binary ?tightest ?noOperand ?negated ?operand ?noSuffix ?member ?index ?otherToken ?noPrimary ?literal
    ?call ?name ?bracketed ?otherPrimary ?noArguments ?arguments ?moreArguments ?noOperator ?otherOperator
    ?operator).1
  case binary =>
    intro level short below operand operators remains
    rw [readLevel_binary scope short below, readLevel_binary scope _ below]
    apply (operand remains).andThen
    intro left rest h _ remains _
    exact operators left rest h remains
  case tightest =>
    intro level short tightest unary remains
    rw [readLevel_tightest scope short tightest, readLevel_tightest scope _ tightest]
    exact unary remains
  case noOperand =>
    intro remains
    have fails : Carried distance more all id (Remains more all) (Reading.fail [] .expression : Reading [] Expr)
        (Reading.fail (onward distance more []) .expression) := .mk_fail remains _
    rw [remains.closed.onward_nil] at fails ⊢
    rw [readUnary_nil]
    exact fails
  case negated =>
    intro t short op sign operand remains
    have other : t.token ≠ .symbol .closeBrace := by
      rintro brace
      rw [brace] at sign
      cases sign
    have sign' : unaryOp? (t.move distance).token = some op := sign
    rw [onward_cons, readUnary_negated scope sign, readUnary_negated scope sign']
    apply Carried.widen
    apply (operand (remains.tail other)).map
    exact fun _ => rfl
  case operand =>
    intro t short sign primary suffixes remains
    have sign' : unaryOp? (t.move distance).token = none := sign
    rw [onward_cons, readUnary_operand scope sign, readUnary_operand scope sign']
    apply (primary remains).andThen
    intro e rest h _ remains _
    exact suffixes e rest h remains
  case noSuffix =>
    intro e remains
    have ends : Carried distance more all id (Remains more all) (Reading.done [] e)
        (Reading.done (onward distance more []) e) := .mk_done e remains.part remains
    rw [remains.closed.onward_nil] at ends ⊢
    rw [readSuffixes_nil]
    exact ends
  case member =>
    intro e t short dot suffixes remains
    have remains := remains.tail fun brace => by simp [brace, Token.isSymbol] at dot
    have dot' : (t.move distance).token.isSymbol .dot := dot
    rw [onward_cons, readSuffixes_member scope e dot, readSuffixes_member scope e dot']
    apply Carried.widen
    apply (Carried.expectName remains).andThen
    intro name rest h _ remains _
    exact suffixes name rest h remains
  case index =>
    intro e t short dot bracket index suffixes remains
    have remains := remains.tail fun brace => by simp [brace, Token.isSymbol] at bracket
    have dot' : ¬ (t.move distance).token.isSymbol .dot := dot
    have bracket' : (t.move distance).token.isSymbol .openBracket := bracket
    rw [onward_cons, readSuffixes_index scope e dot bracket, readSuffixes_index scope e dot' bracket']
    apply Carried.widen
    apply (index remains).andThen
    intro place rest h _ remains _
    apply (Carried.expectSymbol remains (by decide)).andThen
    intro _ last k _ remains _
    exact suffixes place rest h last k remains
  case otherToken =>
    intro e t short dot bracket remains
    have dot' : ¬ (t.move distance).token.isSymbol .dot := dot
    have bracket' : ¬ (t.move distance).token.isSymbol .openBracket := bracket
    rw [onward_cons, readSuffixes_other scope e dot bracket, readSuffixes_other scope e dot' bracket']
    exact .mk_done e remains.part remains
  case noPrimary =>
    intro remains
    have fails : Carried distance more all id (Remains more all) (Reading.fail [] .expression : Reading [] Expr)
        (Reading.fail (onward distance more []) .expression) := .mk_fail remains _
    rw [remains.closed.onward_nil] at fails ⊢
    rw [readPrimary_nil]
    exact fails
  case literal =>
    intro t short value literal remains
    have remains := remains.tail fun brace => by simp [brace, literal?] at literal
    have literal' : literal? (t.move distance).token = some value := literal
    rw [onward_cons, readPrimary_literal scope literal, readPrimary_literal scope literal']
    exact (Carried.mk_done _ remains.part remains).widen _ _
  case call =>
    intro t short literal name span named call arguments remains
    have here : ∃ t ∈ all, t.span = span := ⟨t, remains.mem, span_of_nameOf? named⟩
    have remains := remains.tail fun brace => by simp [brace, nameOf?] at named
    -- What follows the name decides between a call and a plain name, in both places alike.
    have call' := (startsWith_onward distance remains.closed .openParen).trans call
    have named' := (nameOf?_move distance t).trans (congrArg _ named)
    have literal' : literal? (t.move distance).token = none := literal
    rw [onward_cons, readPrimary_call scope literal named call, readPrimary_call scope literal' named' call']
    apply Carried.widen
    apply (Carried.expectSymbol remains (by decide)).andThen
    intro _ rest h _ remains _
    apply (arguments rest h remains).andThen
    intro given last _ _ remains _
    obtain ⟨result, notes⟩ := resolveCall_move distance scope name span given
    rw [id_eq, result]
    exact (Carried.mk_done _ remains.part remains).note notes fun _ => isAt_of_resolveCall here
  case name =>
    intro t short literal name span named call remains
    have here : ∃ t ∈ all, t.span = span := ⟨t, remains.mem, span_of_nameOf? named⟩
    have remains := remains.tail fun brace => by simp [brace, nameOf?] at named
    have call' := mt (startsWith_onward distance remains.closed .openParen).symm.trans call
    have named' := (nameOf?_move distance t).trans (congrArg _ named)
    have literal' : literal? (t.move distance).token = none := literal
    rw [onward_cons, readPrimary_name scope literal named call, readPrimary_name scope literal' named' call']
    obtain ⟨result, notes⟩ := resolveName_move distance scope name span
    rw [result]
    exact ((Carried.mk_done _ remains.part remains).note notes fun _ => isAt_of_resolveName here).widen _ _
  case bracketed =>
    intro t short literal named bracket inner remains
    have remains := remains.tail fun brace => by simp [brace, Token.isSymbol] at bracket
    have named' := (nameOf?_move distance t).trans (congrArg _ named)
    have literal' : literal? (t.move distance).token = none := literal
    have bracket' : (t.move distance).token.isSymbol .openParen := bracket
    rw [onward_cons, readPrimary_bracketed scope literal named bracket,
      readPrimary_bracketed scope literal' named' bracket']
    apply Carried.widen
    apply (inner remains).andThen
    intro e rest h _ remains _
    exact (Carried.expectSymbol remains (by decide)).map fun _ => rfl
  case otherPrimary =>
    intro t short literal named bracket remains
    have named' := (nameOf?_move distance t).trans (congrArg _ named)
    have literal' : literal? (t.move distance).token = none := literal
    have bracket' : ¬ (t.move distance).token.isSymbol .openParen := bracket
    rw [onward_cons, readPrimary_other scope literal named bracket, readPrimary_other scope literal' named' bracket']
    exact .mk_fail remains _
  case noArguments =>
    intro short empty remains
    have empty' := (startsWith_onward distance remains.closed .closeParen).trans empty
    rw [readArguments_none scope empty, readArguments_none scope empty']
    exact (Carried.expectSymbol remains (by decide)).map fun _ => rfl
  case arguments =>
    intro short some_ arguments remains
    have some' := mt (startsWith_onward distance remains.closed .closeParen).symm.trans some_
    rw [readArguments_some scope some_, readArguments_some scope some']
    apply (arguments remains).andThen
    intro given rest h _ remains _
    exact (Carried.expectSymbol remains (by decide)).map fun _ => rfl
  case moreArguments =>
    intro short first more_ remains
    rw [readMoreArguments.eq_def scope short, readMoreArguments.eq_def scope (onward distance more short)]
    apply (first remains).andThen
    intro e rest h k remains _
    cases rest with
    | nil =>
      have ends : Carried distance more all id (Remains more all) (Reading.done [] [e])
          (Reading.done (onward distance more []) [e]) := .mk_done _ remains.part remains
      revert k
      rw [remains.closed.onward_nil] at ends ⊢
      exact fun _ => ends
    | cons t rest =>
      by_cases comma : t.token.isSymbol .comma
      · have remains := remains.tail fun brace => by simp [brace, Token.isSymbol] at comma
        simp only [onward_cons, Lexeme.token_move, comma, if_true]
        apply Carried.widen
        apply (more_ t rest h remains).map
        exact fun _ => rfl
      · simp only [onward_cons, Lexeme.token_move, comma, Bool.false_eq_true, if_false]
        exact .mk_done _ remains.part remains
  case noOperator =>
    intro level left remains
    have ends : Carried distance more all id (Remains more all) (Reading.done [] left)
        (Reading.done (onward distance more []) left) := .mk_done left remains.part remains
    rw [remains.closed.onward_nil] at ends ⊢
    rw [readOperators_nil]
    exact ends
  case otherOperator =>
    intro level left t short none remains
    have none' : binaryOp? level (t.move distance).token = .none := none
    rw [onward_cons, readOperators_other scope left none, readOperators_other scope left none']
    exact .mk_done left remains.part remains
  case operator =>
    intro level left t short op sign operand operators remains
    have remains := remains.tail fun brace => by
      rw [brace] at sign
      cases sign
    have sign' : binaryOp? level (t.move distance).token = some op := sign
    rw [onward_cons, readOperators_operator scope left sign, readOperators_operator scope left sign']
    apply Carried.widen
    apply (operand remains).andThen
    intro right rest h _ remains _
    exact operators right rest h remains

end

end Program

end Stencil
