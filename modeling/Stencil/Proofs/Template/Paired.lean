import Stencil.Template.Tag

/-! Texts that a scan for a delimiter passes over.

In a paired text every quote and every bracket has its partner. A scan that minds strings and brackets goes through
such a text without a stop and behind it stands where it stood in front of it. The scans for the end of a collection
and of a value are of that kind.
-/

set_option autoImplicit false

namespace Stencil.Template

def isSolid (c : Char) : Bool := !isQuote c && (closingOf? c).isNone && !isClosing c

/-- What may stand between two quotes: the quote itself only behind a backslash. -/
inductive Quoted (quote : Char) : List Char → Prop
  | nil : Quoted quote []
  | plain {c : Char} {rest : List Char} (plain : c ≠ '\\') (other : c ≠ quote) (after : Quoted quote rest) :
    Quoted quote (c :: rest)
  | escape (c : Char) {rest : List Char} (after : Quoted quote rest) : Quoted quote ('\\' :: c :: rest)

/-- Quotes and brackets come in pairs. Characters for which `bars` holds stand only inside brackets; `enclosed` tells
whether the text stands inside some. -/
inductive Paired (bars : Char → Bool) : Bool → List Char → Prop
  | nil {enclosed : Bool} : Paired bars enclosed []
  | solid {enclosed : Bool} {c : Char} {rest : List Char} (solid : isSolid c) (free : enclosed ∨ bars c = false)
    (after : Paired bars enclosed rest) : Paired bars enclosed (c :: rest)
  | string {enclosed : Bool} {quote : Char} {content rest : List Char} (quotes : isQuote quote)
    (inside : Quoted quote content) (after : Paired bars enclosed rest) :
    Paired bars enclosed (quote :: (content ++ quote :: rest))
  | group {enclosed : Bool} {opening closing : Char} {inner rest : List Char}
    (pair : closingOf? opening = some closing) (inside : Paired bars true inner) (after : Paired bars enclosed rest) :
    Paired bars enclosed (opening :: (inner ++ closing :: rest))

theorem pair_cases {opening closing : Char} (pair : closingOf? opening = some closing) :
    (opening = '(' ∧ closing = ')') ∨ (opening = '{' ∧ closing = '}') ∨ (opening = '[' ∧ closing = ']') := by
  unfold closingOf? at pair
  split at pair
  · rename_i round
    exact .inl ⟨round, (Option.some.inj pair).symm⟩
  split at pair
  · rename_i curly
    exact .inr (.inl ⟨curly, (Option.some.inj pair).symm⟩)
  split at pair
  · rename_i square
    exact .inr (.inr ⟨square, (Option.some.inj pair).symm⟩)
  · cases pair

theorem quote_cases {c : Char} (quotes : isQuote c) : c = '\'' ∨ c = '"' := by
  simpa [isQuote] using quotes

theorem ne_of_isSolid {c : Char} (solid : isSolid c) :
    isQuote c = false ∧ closingOf? c = none ∧ isClosing c = false := by
  simpa [isSolid, and_assoc] using solid

theorem isSolid_of_isBlank {c : Char} (blank : Text.isBlank c) : isSolid c := by
  have apart : ∀ d, ¬ Text.isBlank d → c ≠ d := by
    rintro d visible rfl
    exact visible blank
  simp [isSolid, isQuote, closingOf?, isClosing, apart '\'' (by decide), apart '"' (by decide), apart '(' (by decide),
    apart '{' (by decide), apart '[' (by decide), apart ')' (by decide), apart '}' (by decide), apart ']' (by decide)]

theorem Quoted.of_free {quote : Char} {content : List Char} (plain : '\\' ∉ content) (other : quote ∉ content) :
    Quoted quote content := by
  induction content with
  | nil => exact .nil
  | cons c rest ih =>
    rw [List.mem_cons, not_or] at plain other
    exact .plain (Ne.symm plain.1) (Ne.symm other.1) (ih plain.2 other.2)

namespace Paired

variable {bars : Char → Bool} {enclosed : Bool} {first second : List Char}

theorem append (before : Paired bars enclosed first) (after : Paired bars enclosed second) :
    Paired bars enclosed (first ++ second) := by
  induction before with
  | nil => exact after
  | solid solid free _ ih => exact .solid solid free (ih after)
  | string quotes inside _ ih =>
    rw [List.cons_append, List.append_assoc, List.cons_append]
    exact .string quotes inside (ih after)
  | group pair inside _ _ ih =>
    rw [List.cons_append, List.append_assoc, List.cons_append]
    exact .group pair inside (ih after)

theorem of_solid {text : List Char} (solid : ∀ c ∈ text, isSolid c) (free : ∀ c ∈ text, enclosed ∨ bars c = false) :
    Paired bars enclosed text := by
  induction text with
  | nil => exact .nil
  | cons c rest ih =>
    rw [List.forall_mem_cons] at solid free
    exact .solid solid.1 free.1 (ih solid.2 free.2)

theorem loosen (paired : Paired bars enclosed first) : Paired (fun _ => false) enclosed first := by
  induction paired with
  | nil => exact .nil
  | solid solid _ _ ih => exact .solid solid (.inr rfl) ih
  | string quotes inside _ ih => exact .string quotes inside ih
  | group pair _ _ ih ih' => exact .group pair ih ih'

theorem dropWhile {p : Char → Bool} (solid : ∀ c, p c → isSolid c) {text : List Char} (paired : Paired bars enclosed text) :
    Paired bars enclosed (text.dropWhile p) := by
  induction paired with
  | nil => exact .nil
  | @solid _ c rest solid' free after ih =>
    by_cases front : p c
    · rw [List.dropWhile_cons_of_pos front]
      exact ih
    · rw [List.dropWhile_cons_of_neg front]
      exact .solid solid' free after
  | @string _ quote content rest quotes inside after _ =>
    have front : ¬ p quote := by
      intro front
      simpa [isSolid, quotes] using solid quote front
    rw [List.dropWhile_cons_of_neg front]
    exact .string quotes inside after
  | @group _ opening closing inner rest pair inside after _ _ =>
    have front : ¬ p opening := by
      intro front
      simpa [isSolid, pair] using solid opening front
    rw [List.dropWhile_cons_of_neg front]
    exact .group pair inside after

end Paired

section
variable {σ : Type} {stop : σ → Char → Bool} {step : σ → Char → σ}

/-- A scan goes through a text without a stop and comes from one state to another. -/
def Passes (stop : σ → Char → Bool) (step : σ → Char → σ) (s : σ) (text : List Char) (t : σ) : Prop :=
  cutAt stop step s text = (text, t, [])

theorem Passes.nil (s : σ) : Passes stop step s [] s := rfl

theorem Passes.cons {s t : σ} {c : Char} {rest : List Char} (goes : stop s c = false)
    (after : Passes stop step (step s c) rest t) : Passes stop step s (c :: rest) t := by
  unfold Passes at *
  simp only [cutAt, goes, Bool.false_eq_true, if_false, after]

/-- Behind a text that it passes, a scan goes on as it would from there. -/
theorem Passes.cutAt_append {s t : σ} {text : List Char} (passes : Passes stop step s text t) (rest : List Char) :
    cutAt stop step s (text ++ rest) =
      (text ++ (cutAt stop step t rest).1, (cutAt stop step t rest).2) := by
  induction text generalizing s with
  | nil =>
    cases passes
    rfl
  | cons c text ih =>
    cases stops : stop s c with
    | true => simp [Passes, cutAt, stops] at passes
    | false =>
      simp only [Passes, cutAt, stops, Bool.false_eq_true, if_false, Prod.mk.injEq, List.cons.injEq, true_and] at passes
      have passes : Passes stop step (step s c) text t := Prod.ext passes.1 passes.2
      simp only [List.cons_append, cutAt, stops, Bool.false_eq_true, if_false, ih passes]

theorem Passes.append {s t u : σ} {first second : List Char} (before : Passes stop step s first t)
    (after : Passes stop step t second u) : Passes stop step s (first ++ second) u := by
  rw [Passes, before.cutAt_append, after]

theorem Quoted.passes (place : Quoting → σ) {quote : Char} (quotes : isQuote quote)
    (goes : ∀ q c, q ≠ .outside → (q = .inside quote → c ≠ quote) →
      stop (place q) c = false ∧ step (place q) c = place (q.step c))
    {content : List Char} (quoted : Quoted quote content) :
    Passes stop step (place (.inside quote)) content (place (.inside quote)) := by
  induction quoted with
  | nil => exact .nil _
  | @plain c rest plain other _ ih =>
    obtain ⟨on, next⟩ := goes (.inside quote) c (by simp) fun _ => other
    refine .cons on ?_
    rw [next, Quoting.step, if_neg plain, if_neg other]
    exact ih
  | @escape c rest _ ih =>
    have other : '\\' ≠ quote := by
      rintro rfl
      cases quotes
    obtain ⟨on, next⟩ := goes (.inside quote) '\\' (by simp) fun _ => other
    obtain ⟨on', next'⟩ := goes (.escaped quote) c (by simp) (by simp)
    refine .cons on ?_
    rw [next, Quoting.step, if_pos rfl]
    refine .cons on' ?_
    rw [next']
    exact ih

/-- A scan minds strings and brackets: while its account of brackets is `within`, neither quotes nor solid characters
nor a pair of brackets stop it or change the account. -/
structure MindsPairs {β : Type} (stop : σ → Char → Bool) (step : σ → Char → σ) (place : β → Quoting → σ)
    (bars : Char → Bool) (within : Bool → β → Prop) : Prop where
  inside : ∀ b q c, q ≠ .outside → stop (place b q) c = false ∧ step (place b q) c = place b (q.step c)
  quote : ∀ b c, isQuote c → stop (place b .outside) c = false ∧ step (place b .outside) c = place b (.inside c)
  solid : ∀ enclosed b c, within enclosed b → isSolid c → (enclosed ∨ bars c = false) →
    stop (place b .outside) c = false ∧ step (place b .outside) c = place b .outside
  group : ∀ enclosed b opening closing, within enclosed b → closingOf? opening = some closing →
    ∃ b', within true b' ∧
      (stop (place b .outside) opening = false ∧ step (place b .outside) opening = place b' .outside) ∧
      (stop (place b' .outside) closing = false ∧ step (place b' .outside) closing = place b .outside)

/-- Such a scan goes through a paired text and comes back to where it was. -/
theorem MindsPairs.passes {β : Type} {place : β → Quoting → σ} {bars : Char → Bool} {within : Bool → β → Prop}
    (minds : MindsPairs stop step place bars within) {enclosed : Bool} {text : List Char}
    (paired : Paired bars enclosed text) {b : β} (here : within enclosed b) :
    Passes stop step (place b .outside) text (place b .outside) := by
  induction paired generalizing b with
  | nil => exact .nil _
  | solid solid free _ ih =>
    obtain ⟨on, next⟩ := minds.solid _ b _ here solid free
    refine .cons on ?_
    rw [next]
    exact ih here
  | @string _ quote content rest quotes inside _ ih =>
    obtain ⟨on, next⟩ := minds.quote b quote quotes
    obtain ⟨on', next'⟩ := minds.inside b (.inside quote) quote (by simp)
    have closes : (Quoting.inside quote).step quote = .outside := by
      have other : quote ≠ '\\' := by
        rintro rfl
        cases quotes
      rw [Quoting.step, if_neg other, if_pos rfl]
    -- Inside of the string the account stands still, up to the quote that closes it.
    have through := inside.passes (place b) quotes fun q c within _ => minds.inside b q c within
    refine .cons on ?_
    rw [next]
    refine through.append (.cons on' ?_)
    rw [next', closes]
    exact ih here
  | @group enclosed opening closing inner rest pair _ _ ih ih' =>
    obtain ⟨b', here', ⟨on, next⟩, on', next'⟩ := minds.group enclosed b opening closing here pair
    refine .cons on ?_
    rw [next]
    refine (ih here').append (.cons on' ?_)
    rw [next']
    exact ih' here

end

/-! ### The scans -/

theorem mindsPairs_closeCollection {bars : Char → Bool} :
    MindsPairs Brackets.stops Brackets.step Brackets.mk bars (fun _ expected => expected ≠ []) where
  inside b q c inside := by simp [Brackets.stops, Brackets.step, inside]
  quote b c quotes := by
    rcases quote_cases quotes with rfl | rfl <;>
      simp [Brackets.stops, Brackets.step, Quoting.step, isQuote, isClosing, closingOf?]
  solid enclosed b c _ solid _ := by
    obtain ⟨plain, opens, closes⟩ := ne_of_isSolid solid
    simp [Brackets.stops, Brackets.step, Quoting.step, plain, opens, closes]
  group enclosed b opening closing some_ pair := by
    refine ⟨closing :: b, List.cons_ne_nil _ _, ?_⟩
    have more : ¬ b.length + 1 ≤ 1 := by
      have := List.length_pos_iff.mpr some_
      omega
    rcases pair_cases pair with ⟨rfl, rfl⟩ | ⟨rfl, rfl⟩ | ⟨rfl, rfl⟩ <;>
      simp [Brackets.stops, Brackets.step, Quoting.step, isQuote, isClosing, closingOf?, some_]

def AttributeStyle.ends : AttributeStyle → Char → Bool
  | .markup => Text.isBlank
  | .table => fun c => c = ','

theorem mindsPairs_cutValue (style : AttributeStyle) :
    MindsPairs (fun n c => n.isBare && style.ends c)
      (Nesting.step (fun c => c = '(' || c = '[' || c = '{') (fun c => c = ')' || c = ']' || c = '}'))
      Nesting.mk style.ends (fun enclosed depth => enclosed → 0 < depth) where
  inside b q c inside := by simp [Nesting.isBare, Nesting.step, inside]
  quote b c quotes := by
    rcases quote_cases quotes with rfl | rfl <;> cases style <;>
      simp [Nesting.isBare, Nesting.step, Quoting.step, isQuote, AttributeStyle.ends, Text.isBlank]
  solid enclosed b c deep solid free := by
    obtain ⟨plain, opens, closes⟩ := ne_of_isSolid solid
    have opens : ¬ ((c = '(' ∨ c = '[') ∨ c = '{') := by
      rintro ((rfl | rfl) | rfl) <;> cases opens
    have closes : ¬ ((c = ')' ∨ c = ']') ∨ c = '}') := by
      rintro ((rfl | rfl) | rfl) <;> cases closes
    refine ⟨?_, by simp [Nesting.step, Quoting.step, plain, opens, closes]⟩
    rcases free with rfl | free
    · simp [Nesting.isBare, Nat.ne_of_gt (deep rfl)]
    · simp [free]
  group enclosed b opening closing deep pair := by
    refine ⟨b + 1, fun _ => Nat.succ_pos b, ?_⟩
    rcases pair_cases pair with ⟨rfl, rfl⟩ | ⟨rfl, rfl⟩ | ⟨rfl, rfl⟩ <;> cases style <;>
      simp [Nesting.isBare, Nesting.step, Quoting.step, isQuote, AttributeStyle.ends, Text.isBlank]

section
variable {bars : Char → Bool} {enclosed : Bool} {text : List Char}

theorem closeCollection_paired (paired : Paired bars enclosed text) (line : Nat) {closing : Char}
    (closes : isClosing closing) (rest : List Char) :
    closeCollection line closing (text ++ closing :: rest) = .ok (text, rest) := by
  have through := mindsPairs_closeCollection.passes paired (b := [closing]) (List.cons_ne_nil _ _)
  unfold closeCollection
  rw [through.cutAt_append]
  simp [cutAt, Brackets.stops, closes]

theorem cutValue_paired {style : AttributeStyle} (paired : Paired style.ends false text) {rest : List Char}
    (stops : ∀ c ∈ rest.head?, style.ends c) : cutValue style (text ++ rest) = (text, rest) := by
  have through := (mindsPairs_cutValue style).passes paired (b := 0) nofun
  have cut : cutValue style (text ++ rest) = ((cutAt (fun n c => n.isBare && style.ends c)
      (Nesting.step (fun c => c = '(' || c = '[' || c = '{') (fun c => c = ')' || c = ']' || c = '}'))
      Nesting.start (text ++ rest)).1, (cutAt (fun n c => n.isBare && style.ends c)
      (Nesting.step (fun c => c = '(' || c = '[' || c = '{') (fun c => c = ')' || c = ']' || c = '}'))
      Nesting.start (text ++ rest)).2.2) := by
    cases style <;> rfl
  rw [cut, Nesting.start, through.cutAt_append]
  cases rest with
  | nil => simp [cutAt]
  | cons c rest => simp [cutAt, Nesting.isBare, stops c rfl]

theorem cutValue_alone {style : AttributeStyle} (paired : Paired style.ends false text) :
    cutValue style text = (text, []) := by
  have cut : cutValue style (text ++ []) = (text, []) := cutValue_paired paired nofun
  rwa [List.append_nil] at cut

theorem closeQuote_quoted {quote : Char} (quotes : isQuote quote) (quoted : Quoted quote text) (rest : List Char) :
    closeQuote quote (text ++ quote :: rest) = some (text, rest) := by
  have through : Passes (fun q c => q = Quoting.inside quote && c = quote) Quoting.step (.inside quote) text
      (.inside quote) :=
    quoted.passes id quotes fun q c _ other => ⟨by simpa using other, rfl⟩
  unfold closeQuote
  rw [through.cutAt_append]
  simp [cutAt]

end

end Stencil.Template
