import Stencil.Proofs.Template.Offsets.Text

/-! Attributes are read by offsets as on characters.

A quote is of one byte, so what lies between two of them is cut out by stepping over one byte in front.
-/

set_option autoImplicit false

namespace Stencil

open Program (byteLength byteLength_append byteLength_cons)

namespace Template.ByOffset

open Text (cut? slice? cut?_eq slice?_eq)

theorem utf8Size_of_isQuote {c : Char} (quote : isQuote c) : c.utf8Size = 1 := by
  simp only [isQuote, Bool.or_eq_true, decide_eq_true_eq] at quote
  rcases quote with rfl | rfl <;> rfl

theorem quoteEnd_eq (line : Nat) {quote : Char} (is : isQuote quote) (text : List Char) :
    quoteEnd line quote (quote :: text) =
      match closeQuote quote text with
      | some (inner, _) => .ok (1 + byteLength inner)
      | none => .error (.tag line (.unterminatedString (String.ofList (quote :: text)))) := by
  rw [quoteEnd, closeQuote, seek_eq, utf8Size_of_isQuote is]
  rcases cutAt _ _ (Quoting.inside quote) text with ⟨inner, state, _ | ⟨c, rest⟩⟩ <;> rfl

section

variable {first last : Char} {text inner after : List Char} (single : first.utf8Size = 1)

include single

theorem cut?_one (rest : List Char) :
    ∃ whole begun, cut? 1 (first :: rest) = some ⟨[first], rest, whole, begun⟩ := by
  have place : byteLength [first] = 1 := by rw [byteLength_cons, single]; rfl
  exact ⟨List.singleton_append, _, cut?_eq List.singleton_append place⟩

variable (whole : inner ++ last :: after = text)

include whole

theorem slice?_enclosed : slice? 1 (1 + byteLength inner) (first :: text) = some inner := by
  have place : byteLength [first] = 1 := by rw [byteLength_cons, single]; rfl
  have whole : [first] ++ (inner ++ last :: after) = first :: text := by rw [whole]; rfl
  exact slice?_eq whole place (by rw [byteLength_append, place])

theorem cut?_enclosed (single' : last.utf8Size = 1) : ∃ whole begun, cut? (1 + byteLength inner + 1) (first :: text) =
    some ⟨first :: (inner ++ [last]), after, whole, begun⟩ := by
  have whole : first :: (inner ++ [last]) ++ after = first :: text := by simp [← whole]
  have place : byteLength (first :: (inner ++ [last])) = 1 + byteLength inner + 1 := by
    rw [byteLength_cons, byteLength_append, byteLength_cons, single, single', Nat.add_assoc]
    rfl
  exact ⟨whole, _, cut?_eq whole place⟩

end

theorem agrees_takeName (isPart : Char → Bool) (text : List Char) :
    Agrees Named.pair (takeName isPart text) (.ok (Template.takeName isPart text)) := by
  obtain ⟨short, same⟩ := takeName_eq isPart text
  rw [same]
  exact agrees_ok _ _

theorem agrees_symbolName (line : Nat) (symbol : List Char) :
    Agrees Named.pair (symbolName line symbol)
      (match symbol with
        | c :: rest =>
          if isQuote c then
            match closeQuote c rest with
            | some (name, after) => .ok (name, after)
            | none => .error (.tag line (.unterminatedString (String.ofList (c :: rest))))
          else .ok (Template.takeName (isAttributeChar .table) (c :: rest))
        | [] => .ok ([], [])) := by
  cases symbol with
  | nil => exact agrees_takeName _ []
  | cons c rest =>
    by_cases quote : isQuote c
    · rw [symbolName, List.head?_cons, Option.filter_some, if_pos quote]
      simp only [quote, if_true]
      rw [quoteEnd_eq line quote]
      cases closed : closeQuote c rest with
      | none => exact agrees_error _
      | some cut =>
        obtain ⟨inner, after⟩ := cut
        have single := utf8Size_of_isQuote quote
        have closed := append_of_closeQuote closed
        obtain ⟨whole, begun, behind⟩ := cut?_enclosed single closed single
        simp only [settled_ok_bind, slice?_enclosed single closed, behind, cutting_some_bind]
        exact agrees_ok Named.pair _
    · rw [symbolName, List.head?_cons, Option.filter_some, if_neg quote]
      simp only [quote]
      exact agrees_takeName _ _

theorem agrees_attributeName (style : AttributeStyle) (line : Nat) (text : List Char) :
    Agrees Named.pair (attributeName style line text) (Template.attributeName style line text) := by
  cases style with
  | markup => exact agrees_takeName _ text
  | table =>
    obtain ⟨result, sliced, plain⟩ := agrees_symbolName line (dropColon text)
    have plain : Template.attributeName .table line text = result.map Named.pair := plain
    rw [attributeName, sliced, plain]
    cases result with
    | error e => exact agrees_error e
    | ok named => exact agrees_ok Named.pair _

theorem cutValue_append (style : AttributeStyle) (text : List Char) :
    (cutValue style text).1 ++ (cutValue style text).2 = text := cutAt_append _ _ _ text

theorem valueEnd_eq (style : AttributeStyle) (text : List Char) :
    valueEnd style text = byteLength (cutValue style text).1 := by
  have whole := cutValue_append style text
  rw [valueEnd, seek_eq]
  unfold cutValue at whole ⊢
  dsimp only at whole ⊢
  generalize cutAt _ _ Nesting.start text = cut at whole ⊢
  obtain ⟨front, state, _ | ⟨c, rest⟩⟩ := cut
  · rw [← whole, List.append_nil]
    rfl
  · exact Nat.zero_add _

theorem agrees_attributeValue (style : AttributeStyle) (line : Nat) (name text : List Char) :
    Agrees Found.pair (attributeValue style line name text) (Template.attributeValue style line name text) := by
  cases text with
  | nil => exact agrees_error _
  | cons c rest =>
    rw [attributeValue, Template.attributeValue]
    by_cases quote : isQuote c
    · rw [if_pos quote, if_pos quote, quoteEnd_eq line quote]
      cases closed : closeQuote c rest with
      | none => exact agrees_error _
      | some cut =>
        obtain ⟨inner, after⟩ := cut
        have single := utf8Size_of_isQuote quote
        have closed := append_of_closeQuote closed
        obtain ⟨whole, begun, behind⟩ := cut?_enclosed single closed single
        simp only [settled_ok_bind, slice?_enclosed single closed, behind, cutting_some_bind, quotedValue_eq]
        cases Template.quotedValue line inner with
        | error e => exact agrees_error e
        | ok node => exact agrees_ok Found.pair _
    · rw [if_neg quote, if_neg quote, cut?_eq (cutValue_append style (c :: rest)) (valueEnd_eq _ _).symm]
      simp only [cutting_some_bind]
      cases evalNode line (cutValue style (c :: rest)).1 with
      | error e => exact agrees_error e
      | ok node => exact agrees_ok Found.pair _

theorem agrees_readAttribute (style : AttributeStyle) (line : Nat) (text : List Char) :
    Agrees Found.pair (readAttribute style line text) (Template.readAttribute style line text) := by
  obtain ⟨result, sliced, plain⟩ := agrees_attributeName style line text
  rw [readAttribute, Template.readAttribute, sliced, plain]
  cases result with
  | error e => exact agrees_error e
  | ok named =>
    simp only [settled_ok_bind, Except.map, Named.pair, List.isEmpty_iff]
    by_cases empty : named.name = []
    · rw [dif_pos empty, if_pos empty]
      exact agrees_error _
    · rw [dif_neg empty, if_neg empty]
      split
      next value separated =>
        obtain ⟨result, sliced, plain⟩ := agrees_attributeValue style line named.name (Text.trimStart value)
        simp only [separated, sliced, plain]
        cases result with
        | error e => exact agrees_error e
        | ok found => exact agrees_ok Found.pair _
      next separated =>
        simp only [separated]
        cases style with
        | table => exact agrees_error _
        | markup => exact agrees_ok Found.pair _

theorem readAttributes_eq (style : AttributeStyle) (line : Nat) (text : List Char) :
    readAttributes style line text = settled (Template.readAttributes style line text) := by
  fun_induction Template.readAttributes style line text with
  | case1 text rest empty =>
    rw [readAttributes]
    exact if_pos empty
  | case2 text rest some e failed =>
    obtain ⟨result, sliced, plain⟩ := agrees_readAttribute style line rest
    rw [failed] at plain
    cases result with
    | ok found => cases plain
    | error e =>
      cases plain
      rw [readAttributes]
      exact (if_neg some).trans (by rw [sliced, settled_error_bind])
  | case3 text rest some node after read ih =>
    obtain ⟨result, sliced, plain⟩ := agrees_readAttribute style line rest
    rw [read] at plain
    cases result with
    | error e => cases plain
    | ok found =>
      cases plain
      rw [readAttributes]
      refine (if_neg some).trans ?_
      rw [sliced, settled_ok_bind, ih]
      cases Template.readAttributes style line found.rest <;> rfl

end Template.ByOffset

end Stencil
