import Stencil.Proofs.Program.Places
import Stencil.Proofs.Template.Splitting
import Stencil.Template.Offsets

/-! A text is read by offsets without a cut that is not there.

Where the reader cuts a text it has found a character of it, or the end: the offset is the length of what stands in
front. So it comes to the segments that the reader on characters finds.
-/

set_option autoImplicit false

namespace Stencil

open Program (byteLength byteLength_append byteLength_cons)

namespace Text

variable {offset : Nat} {text front back : List Char}

theorem begun_of_place (place : byteLength front = offset) : offset ≠ 0 → front ≠ [] := by
  rintro some rfl
  exact some place.symm

theorem cut?_eq (whole : front ++ back = text) (place : byteLength front = offset) :
    cut? offset text = some ⟨front, back, whole, begun_of_place place⟩ := by
  subst whole
  induction front generalizing offset with
  | nil =>
    obtain rfl : 0 = offset := place
    cases back <;> rfl
  | cons c front ih =>
    rw [byteLength_cons] at place
    have positive := c.utf8Size_pos
    obtain ⟨last, rfl⟩ : ∃ last, offset = last + 1 := ⟨offset - 1, by omega⟩
    have left : byteLength front = last + 1 - c.utf8Size := by omega
    show cut? (last + 1) (c :: (front ++ back)) = _
    rw [cut?, if_pos (by omega), ih left]
    rfl

theorem slice?_eq {start stop : Nat} {inner : List Char} (whole : front ++ (inner ++ back) = text)
    (first : byteLength front = start) (last : byteLength (front ++ inner) = stop) :
    slice? start stop text = some inner := by
  have le : start ≤ stop := by
    rw [byteLength_append] at last
    omega
  rw [slice?, if_pos le, cut?_eq ((List.append_assoc _ _ _).trans whole) last]
  show (cut? start (front ++ inner)).bind _ = _
  rw [cut?_eq rfl first]
  rfl

theorem backFrom?_eq {distance : Nat} (le : distance ≤ offset) : backFrom? offset distance = some (offset - distance) :=
  if_pos le

end Text

namespace Template.ByOffset

open Text (Cut cut? slice? backFrom? cut?_eq slice?_eq backFrom?_eq)

/-! ### Readings -/

section

variable {α α' β β' γ δ : Type}

@[simp] theorem settled_ok_bind (a : α) (f : α → Sliced β) : (settled (.ok a) >>= f) = f a := rfl

@[simp] theorem settled_error_bind (e : ParseError) (f : α → Sliced β) :
    (settled (.error e) >>= f) = settled (.error e) := rfl

@[simp] theorem cutting_some_bind (a : α) (f : α → Sliced β) : (cutting (some a) >>= f) = f a := rfl

theorem settled_bind (x : Except ParseError α) (f : α → Except ParseError β) :
    settled (x >>= f) = settled x >>= fun a => settled (f a) := by
  cases x <;> rfl

theorem pure_eq (a : α) : (pure a : Sliced α) = settled (.ok a) := rfl

/-- A reading by offsets comes to what another one does, seen through `view`, or fails as it does. -/
def Agrees (view : α → β) (x : Sliced α) (y : Except ParseError β) : Prop :=
  ∃ result : Except ParseError α, x = settled result ∧ y = result.map view

theorem agrees_ok (view : α → β) (a : α) : Agrees view (settled (.ok a)) (.ok (view a)) := ⟨.ok a, rfl, rfl⟩

theorem agrees_error {view : α → β} (e : ParseError) : Agrees view (settled (.error e)) (.error e) :=
  ⟨.error e, rfl, rfl⟩

/-- Readings that agree go on alike behind what they leave alike. -/
theorem Agrees.bind {view : α → β × γ} {view' : α' → δ} {x : Sliced α} {y : Except ParseError β} {rest : γ}
    {f : α → Sliced α'} {g : β → Except ParseError β'} {h : β' → δ} (agrees : Agrees view x (y.map (·, rest)))
    (next : ∀ a, (view a).2 = rest → Agrees view' (f a) ((g (view a).1).map h)) :
    Agrees view' (x >>= f) ((y >>= g).map h) := by
  obtain ⟨result, rfl, plain⟩ := agrees
  cases result with
  | error e =>
    cases y with
    | error e' =>
      cases plain
      exact agrees_error e
    | ok b => cases plain
  | ok a =>
    cases y with
    | error e => cases plain
    | ok b =>
      have same : (b, rest) = view a := Except.ok.inj plain
      have next := next a (by rw [← same])
      rwa [← same] at next

def Found.pair {bound : Nat} (found : Found α bound) : α × List Char := (found.value, found.rest)

def Named.pair {text : List Char} (named : Named text) : List Char × List Char := (named.name, named.rest)

def Taken.pair {lines : List Line} (taken : Taken α lines) : α × List Line := (taken.value, taken.rest)

end

/-! ### Places -/

section

variable {σ : Type} {stop : σ → Char → Bool} {step : σ → Char → σ}

theorem seek_eq (s : σ) (offset : Nat) (text : List Char) :
    seek stop step s offset text = ((cutAt stop step s text).2.1,
      (cutAt stop step s text).2.2.head?.map (offset + byteLength (cutAt stop step s text).1, ·)) := by
  induction text generalizing s offset with
  | nil => rfl
  | cons c rest ih =>
    rw [seek, cutAt]
    split
    · rfl
    · rw [ih]
      simp only [byteLength_cons, Nat.add_assoc]

end

theorem nameEnd_eq (isPart : Char → Bool) (text : List Char) :
    nameEnd isPart text = byteLength (text.takeWhile isPart) := by
  have cut : cutAt (fun (_ : Unit) c => !isPart c) (fun _ _ => ()) () text =
      (text.takeWhile isPart, (), text.dropWhile isPart) := by
    induction text with
    | nil => rfl
    | cons c rest ih => cases part : isPart c <;> simp [cutAt, part, ih]
  rw [nameEnd, seek_eq, cut]
  cases left : text.dropWhile isPart with
  | nil =>
    have whole := List.takeWhile_append_dropWhile (p := isPart) (l := text)
    rw [left, List.append_nil] at whole
    rw [whole]
    rfl
  | cons c rest => exact Nat.zero_add _

theorem takeName_eq (isPart : Char → Bool) (text : List Char) :
    ∃ short, takeName isPart text = settled (.ok ⟨text.takeWhile isPart, text.dropWhile isPart, short⟩) := by
  rw [takeName, cut?_eq List.takeWhile_append_dropWhile (nameEnd_eq isPart text).symm]
  exact ⟨_, rfl⟩

theorem interpolationEnd_eq (body : List Char) :
    interpolationEnd body = (closeBracket '{' '}' body).map fun cut => byteLength cut.1 := by
  rw [interpolationEnd, seek_eq, closeBracket]
  rcases cutAt _ _ Nesting.start body with ⟨inner, state, _ | ⟨c, rest⟩⟩
  · rfl
  · exact congrArg some (Nat.zero_add _)

/-! ### Text -/

theorem not_hasOpening_of_openingAt {offset : Nat} {text : List Char} (none : openingAt offset text = none) :
    ¬HasOpening text := by
  fun_induction openingAt offset text with
  | case1 => decide
  | case2 => cases none
  | case3 offset c rest other ih =>
    rintro opening
    rcases List.infix_cons_iff.mp opening with ⟨more, first⟩ | later
    · cases first
      exact other _ rfl rfl
    · exact ih none later

theorem exists_of_openingAt {offset start : Nat} {text : List Char} (some_ : openingAt offset text = some start) :
    ∃ before rest, text = before ++ '#' :: '{' :: rest ∧ start = offset + byteLength before ∧ ¬HasOpening before := by
  fun_induction openingAt offset text with
  | case1 => cases some_
  | case2 offset rest =>
    cases some_
    exact ⟨[], rest, rfl, rfl, by decide⟩
  | case3 offset c rest other ih =>
    obtain ⟨before, more, rfl, place, none⟩ := ih some_
    refine ⟨c :: before, more, rfl, by rw [place, byteLength_cons, Nat.add_assoc], fun opening => ?_⟩
    rcases List.infix_cons_iff.mp opening with ⟨_, first⟩ | later
    · cases first
      exact other _ rfl rfl
    · exact none later

theorem splitSegments_escaped (line : Nat) {before : List Char} (none : ¬HasOpening before) (rest : List Char) :
    Template.splitSegments line (before ++ '\\' :: '#' :: '{' :: rest) =
      (Template.splitSegments line rest).map fun segments => (before ++ ['#', '{']).foldr consChar segments := by
  induction before with
  | nil =>
    rw [List.nil_append, Template.splitSegments]
    rfl
  | cons c before ih =>
    have none' : ¬HasOpening before := not_hasOpening_within none (List.infix_cons List.infix_rfl)
    rw [List.cons_append, splitSegments_cons, ih none']
    · cases Template.splitSegments line rest <;> rfl
    · -- No character of `before` begins an opening, nor an escaped one.
      rintro rfl front
      cases before with
      | nil => cases front
      | cons d before =>
        cases front
        exact none ⟨[], before, rfl⟩
    · rintro rfl ⟨more, front⟩
      cases before with
      | nil => cases front
      | cons d before =>
        cases before with
        | nil => cases front
        | cons e before =>
          cases front
          exact none ⟨['\\'], before, rfl⟩

theorem splitSegments_opening (line : Nat) (body : List Char) :
    Template.splitSegments line ('#' :: '{' :: body) =
      match closeBracket '{' '}' body with
      | none => .error (.variable line (.malformed (String.ofList ('#' :: '{' :: body))))
      | some (inner, rest) =>
        if (Text.trim inner).isEmpty then
          .error (.variable line (.malformed (String.ofList ('#' :: '{' :: inner ++ ['}']))))
        else (Template.splitSegments line rest).map (.variable (Text.trim inner) :: ·) := by
  rw [Template.splitSegments]
  split <;> next same => rw [same]

theorem ofLiteral_eq (content : List Char) : ofLiteral content = content.foldr consChar [] := by
  rw [foldr_consChar_nil, ofLiteral, literalSegments]
  simp only [List.isEmpty_iff]

theorem cut?_opening {start : Nat} {before : List Char} (place : start = byteLength before) (rest : List Char) :
    ∃ whole begun, cut? (start + 2) (before ++ '#' :: '{' :: rest) =
      some ⟨before ++ ['#', '{'], rest, whole, begun⟩ := by
  have whole : (before ++ ['#', '{']) ++ rest = before ++ '#' :: '{' :: rest := by simp
  have opened : byteLength (before ++ ['#', '{']) = start + 2 := by
    rw [byteLength_append, ← place]
    rfl
  exact ⟨whole, _, cut?_eq whole opened⟩

section

variable (line : Nat) (literal : List Char) {start : Nat} {before rest : List Char}
  (opens : openingAt 0 (before ++ '#' :: '{' :: rest) = some start) (place : start = byteLength before)

include opens place

theorem readSegments_escaped {front : List Char} (escaped : before = front ++ ['\\']) :
    ∃ short, readSegments line literal (before ++ '#' :: '{' :: rest) =
      settled (.ok ([], some ⟨literal ++ front ++ ['#', '{'], rest, short⟩)) := by
  have size : byteLength before = byteLength front + 1 := by
    rw [escaped, byteLength_append]
    rfl
  have last : byteLength front = start - 1 := by omega
  have positive : 1 ≤ start := by omega
  -- The backslash is of one byte, so the offset in front of it is where `front` ends.
  have ends : before.getLast? = some '\\' := List.getLast?_eq_some_iff.mpr ⟨front, escaped⟩
  have whole : front ++ ('\\' :: '#' :: '{' :: rest) = before ++ '#' :: '{' :: rest := by simp [escaped]
  obtain ⟨_, _, behind⟩ := cut?_opening place rest
  have short : rest.length < (before ++ '#' :: '{' :: rest).length := by
    simp only [List.length_append, List.length_cons]
    omega
  simp only [readSegments, opens]
  rw [cut?_eq rfl place.symm]
  simp only [cutting_some_bind]
  rw [if_pos ends, backFrom?_eq positive]
  simp only [cutting_some_bind]
  rw [cut?_eq whole last, cutting_some_bind, behind]
  exact ⟨short, rfl⟩

variable (plain : before.getLast? ≠ some '\\')

include plain

theorem readSegments_open (never : closeBracket '{' '}' rest = none) :
    readSegments line literal (before ++ '#' :: '{' :: rest) =
      settled (.error (.variable line (.malformed (String.ofList ('#' :: '{' :: rest))))) := by
  obtain ⟨_, _, behind⟩ := cut?_opening place rest
  simp only [readSegments, opens]
  rw [cut?_eq rfl place.symm]
  simp only [cutting_some_bind]
  rw [if_neg plain, behind]
  simp only [cutting_some_bind, interpolationEnd_eq, never, Option.map_none]

theorem readSegments_closed {inner after : List Char} (closed : closeBracket '{' '}' rest = some (inner, after)) :
    ∃ short, readSegments line literal (before ++ '#' :: '{' :: rest) =
      settled (if (Text.trim inner).isEmpty then
          .error (.variable line (.malformed (String.ofList ('#' :: '{' :: inner ++ ['}']))))
        else .ok (ofLiteral (literal ++ before) ++ [.variable (Text.trim inner)], some ⟨[], after, short⟩)) := by
  obtain ⟨_, _, behind⟩ := cut?_opening place rest
  have whole := append_of_closeBracket closed
  have short : after.length < (before ++ '#' :: '{' :: rest).length := by
    simp only [← whole, List.length_append, List.length_cons]
    omega
  simp only [readSegments, opens]
  rw [cut?_eq rfl place.symm]
  simp only [cutting_some_bind]
  rw [if_neg plain, behind]
  simp only [cutting_some_bind, interpolationEnd_eq, closed, Option.map_some]
  rw [cut?_eq whole rfl]
  refine ⟨short, ?_⟩
  by_cases blank : (Text.trim inner).isEmpty
  · have written : before ++ (('#' :: '{' :: inner ++ ['}']) ++ after) = before ++ '#' :: '{' :: rest := by
      simp [← whole]
    have last : byteLength (before ++ ('#' :: '{' :: inner ++ ['}'])) = start + byteLength inner + 3 := by
      rw [byteLength_append, ← place, List.cons_append, List.cons_append, byteLength_cons, byteLength_cons,
        byteLength_append]
      show start + (1 + (1 + (byteLength inner + 1))) = _
      omega
    rw [cutting_some_bind, if_pos blank, if_pos blank, slice?_eq written place.symm last]
    rfl
  · have last : byteLength (inner ++ ['}']) = byteLength inner + 1 := by
      rw [byteLength_append]
      rfl
    rw [cutting_some_bind, if_neg blank, if_neg blank,
      cut?_eq (by simpa using whole : (inner ++ ['}']) ++ after = rest) last]
    rfl

end

theorem splitSegments_eq (line : Nat) (literal text : List Char) :
    splitSegments line literal text =
      settled ((Template.splitSegments line text).map fun segments => literal.foldr consChar segments) := by
  -- By the length of the text: the reading goes on with what it leaves, and not with the tail of the text.
  induction count : text.length using Nat.strong_induction_on generalizing literal text with
  | _ size ih =>
    rw [splitSegments]
    cases opens : openingAt 0 text with
    | none =>
      have same := splitSegments_literal line (not_hasOpening_of_openingAt opens) (.inl rfl : [] = [] ∨ _)
      rw [List.append_nil, Template.splitSegments] at same
      rw [readSegments, opens, same]
      simp only [pure_eq, settled_ok_bind, ofLiteral_eq, List.foldr_append]
      rfl
    | some start =>
      obtain ⟨before, rest, rfl, place, none⟩ := exists_of_openingAt opens
      rw [Nat.zero_add] at place
      by_cases escaped : before.getLast? = some '\\'
      · obtain ⟨front, ends⟩ := List.getLast?_eq_some_iff.mp escaped
        have none' : ¬HasOpening front := not_hasOpening_within none (ends ▸ List.prefix_append _ _).isInfix
        have whole : before ++ '#' :: '{' :: rest = front ++ ('\\' :: '#' :: '{' :: rest) := by simp [ends]
        obtain ⟨short, read⟩ := readSegments_escaped line literal opens place ends
        rw [read, settled_ok_bind]
        simp only [pure_eq]
        rw [ih _ (count ▸ short) _ _ rfl, whole, splitSegments_escaped line none' rest]
        cases Template.splitSegments line rest with
        | error e => rfl
        | ok segments => simp [Except.map, List.foldr_append]
      · have same := splitSegments_literal line none (.inr ⟨⟨rest, rfl⟩, escaped⟩ : '#' :: '{' :: rest = [] ∨ _)
        rw [same, splitSegments_opening]
        cases closed : closeBracket '{' '}' rest with
        | none =>
          rw [readSegments_open line literal opens place escaped closed]
          rfl
        | some cut =>
          obtain ⟨inner, after⟩ := cut
          obtain ⟨short, read⟩ := readSegments_closed line literal opens place escaped closed
          rw [read]
          by_cases blank : (Text.trim inner).isEmpty
          · simp only [blank, if_true]
            rfl
          · simp only [blank, Bool.false_eq_true, if_false, settled_ok_bind, pure_eq]
            rw [ih _ (count ▸ short) _ _ rfl]
            cases Template.splitSegments line after with
            | error e => rfl
            | ok segments =>
              have front := foldr_consChar_variable (literal ++ before) (Text.trim inner) segments
              rw [← foldr_consChar_nil, ← ofLiteral_eq, List.foldr_append] at front
              simp only [Except.map, settled_ok_bind, List.foldr_nil, List.append_assoc,
                List.singleton_append, front]

theorem textNode_eq (line : Nat) (text : List Char) : textNode line text = settled (Template.textNode line text) := by
  rw [textNode, Template.textNode, splitSegments_eq]
  cases Template.splitSegments line text <;> rfl

theorem quotedValue_eq (line : Nat) (raw : List Char) :
    quotedValue line raw = settled (Template.quotedValue line raw) := by
  rw [quotedValue, Template.quotedValue, splitSegments_eq]
  cases Template.splitSegments line raw with
  | error e => rfl
  | ok segments =>
    simp only [Except.map, List.foldr_nil, settled_ok_bind]
    have rest (text mixed : Node) :
        (if segments.all Segment.isLiteral then pure text else pure mixed : Sliced Node) =
          settled (if segments.all Segment.isLiteral then pure text else pure mixed) := by
      split <;> rfl
    rcases segments with _ | ⟨_ | path, _ | ⟨second, more⟩⟩
    · exact rest _ _
    · exact rest _ _
    · exact rest _ _
    · rfl
    · exact rest _ _

end Template.ByOffset

end Stencil
