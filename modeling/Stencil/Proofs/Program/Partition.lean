import Stencil.Proofs.Program.Accounts
import Stencil.Proofs.Program.Rules

/-! A text is the pieces of it that count, with blanks and comments between them.

Nothing of a text is lost or told twice: what stands between two pieces is skipped, and comments reach to the end of
their line. So a line feed behind a text without strays is a place where lexing starts over.
-/

set_option autoImplicit false

namespace Stencil.Program

/-! ### What is skipped -/

/-- What may stand in front of `behind` and is skipped: blanks, and comments up to the end of their line. -/
inductive Gap (behind : List Char) : List Char → Prop where
  | none : Gap behind []
  | blank {c : Char} {gap : List Char} (space : isSpace c) (more : Gap behind gap) : Gap behind (c :: gap)
  | comment {words gap : List Char} (line : '\n' ∉ words) (stops : ∀ c ∈ (gap ++ behind).head?, c = '\n')
    (more : Gap behind gap) : Gap behind ('/' :: '/' :: (words ++ gap))

section

variable {behind gap text after : List Char} {kind : PieceKind}

theorem Gap.blanks {blanks : List Char} (all : ∀ c ∈ blanks, isSpace c) (more : Gap behind gap) :
    Gap behind (blanks ++ gap) := by
  induction blanks with
  | nil => exact more
  | cons c blanks ih =>
    rw [List.forall_mem_cons] at all
    exact .blank all.1 (ih all.2)

theorem stops_of_longest {words : List Char} (line : '\n' ∉ words)
    (longest : Rule.comment.Longest ('/' :: '/' :: words) after) : ∀ c ∈ after.head?, c = '\n' := by
  intro c head
  obtain ⟨rest, rfl⟩ := List.head?_eq_some_iff.mp head
  by_contra other
  have more : Rule.comment.Matches ('/' :: '/' :: (words ++ [c])) := .comment (by simp [line, Ne.symm other])
  have short := longest.longest .comment _ more ⟨rest, by simp⟩
  simp only [List.length_cons, List.length_append, List.length_nil] at short
  omega

theorem isSkipped_integerKind (digits : List Char) : (integerKind digits).isSkipped = false := by
  unfold integerKind
  dsimp only
  split <;> rfl

theorem gap_of_settled (settled : Settled kind text (gap ++ behind)) (skipped : kind.isSkipped)
    (more : Gap behind gap) : Gap behind (text ++ gap) := by
  cases settled with
  | stray => cases skipped
  | ruled rule longest =>
    cases longest.here with
    | blanks _ all => exact .blanks all more
    | comment line => exact .comment line (stops_of_longest line longest) more
    | integer _ _ => exact absurd skipped (by rw [Rule.kindOf, isSkipped_integerKind]; decide)
    | _ => cases skipped

end

/-! ### What counts -/

/-- Marks that, with what is skipped between them, are all of a text that begins at some offset. -/
inductive Partition : (offset : Nat) → (text : List Char) → (marks : List (Span × Piece)) → Prop where
  | last {offset : Nat} {gap : List Char} (skipped : Gap [] gap) : Partition offset gap []
  | next {offset : Nat} {gap rest : List Char} {piece : Piece} {marks : List (Span × Piece)}
    (skipped : Gap (piece.text ++ rest) gap) (some : piece.text ≠ []) (counts : piece.kind.isSkipped = false)
    (settled : Settled piece.kind piece.text rest)
    (more : Partition (offset + byteLength (gap ++ piece.text)) rest marks) :
    Partition offset (gap ++ (piece.text ++ rest))
      ((⟨offset + byteLength gap, offset + byteLength (gap ++ piece.text)⟩, piece) :: marks)

theorem Partition.skip {offset : Nat} {kind : PieceKind} {front text : List Char} {marks : List (Span × Piece)}
    (settled : Settled kind front text) (skipped : kind.isSkipped)
    (parts : Partition (offset + byteLength front) text marks) : Partition offset (front ++ text) marks := by
  cases parts with
  | last gap =>
    rw [← List.append_nil text] at settled
    exact .last (gap_of_settled settled skipped gap)
  | @next _ gap rest piece marks between some counts own more =>
    have place (here : List Char) :
        offset + byteLength front + byteLength here = offset + byteLength (front ++ here) := by
      rw [byteLength_append, Nat.add_assoc]
    rw [place, ← List.append_assoc] at more
    rw [place, place, ← List.append_assoc front gap (piece.text ++ rest), ← List.append_assoc front gap piece.text]
    exact .next (gap_of_settled settled skipped between) some counts own more

/-- The pieces that count, and what is skipped between them, are all of a text. -/
theorem partition_solids (offset : Nat) (text : List Char) : Partition offset text (solids offset text) := by
  induction text using pieces.induct generalizing offset with
  | case1 =>
    rw [solids_nil]
    exact .last .none
  | case2 c rest ih =>
    have settled := nextPiece_settled c rest
    have whole : c :: rest = (c :: (nextPiece c rest).tail) ++ (nextPiece c rest).rest := by
      rw [List.cons_append, nextPiece_append]
    have ih := ih (offset + byteLength (c :: (nextPiece c rest).tail))
    rw [solids_cons]
    -- What is skipped joins the gap in front of the next piece that counts.
    cases counts : (nextPiece c rest).kind.isSkipped with
    | true =>
      rw [List.filter_cons_of_neg (by simp [counts]), List.filter_nil, List.nil_append]
      exact whole ▸ ih.skip settled counts
    | false =>
      rw [List.filter_cons_of_pos (by simp [counts]), List.filter_nil, List.singleton_append]
      have next := @Partition.next offset [] _ ⟨(nextPiece c rest).kind, c :: (nextPiece c rest).tail⟩ _ .none
        (List.cons_ne_nil _ _) counts settled ih
      exact whole ▸ next

/-- A piece of a text as it is told: it stands where its span says, is not empty, and is settled by the rules. -/
structure Placed (offset : Nat) (text : List Char) (at_ : Span × Piece) (before after : List Char) : Prop where
  whole : text = before ++ (at_.2.text ++ after)
  start : at_.1.start = offset + byteLength before
  stop : at_.1.stop = offset + byteLength (before ++ at_.2.text)
  some : at_.1.start < at_.1.stop
  settled : Settled at_.2.kind at_.2.text after

theorem byteLength_pos {text : List Char} (some : text ≠ []) : 0 < byteLength text := by
  obtain ⟨c, rest, rfl⟩ := List.exists_cons_of_ne_nil some
  rw [byteLength_cons]
  have := c.utf8Size_pos
  omega

section

variable {offset : Nat} {text : List Char} {marks : List (Span × Piece)}

theorem Partition.placed (parts : Partition offset text marks) :
    ∀ at_ ∈ marks, ∃ before after, Placed offset text at_ before after := by
  induction parts with
  | last => simp
  | @next offset gap rest piece marks between some counts settled more ih =>
    rintro at_ (_ | ⟨_, later⟩)
    · refine ⟨gap, rest, rfl, rfl, rfl, ?_, settled⟩
      have := byteLength_pos some
      simp only [byteLength_append]
      omega
    · -- The place of a later piece is told from the end of the first one, and what stands in front adds up.
      obtain ⟨before, after, whole, start, stop, some', own⟩ := ih at_ later
      refine ⟨gap ++ piece.text ++ before, after, ?_, ?_, ?_, some', own⟩
      · simp [whole]
      · rw [start, byteLength_append _ before]
        omega
      · rw [stop, List.append_assoc _ before, byteLength_append _ (before ++ _)]
        omega

theorem Partition.apart (parts : Partition offset text marks) :
    marks.Pairwise fun a b => a.1.stop ≤ b.1.start := by
  induction parts with
  | last => exact .nil
  | @next offset gap rest piece marks between some counts settled more ih =>
    refine .cons (fun later member => ?_) ih
    obtain ⟨before, after, placed⟩ := more.placed later member
    have start := placed.start
    dsimp only
    omega

end

/-! ### Tokenizing -/

/-- Behind a line feed that ends a text without strays, lexing starts over. -/
theorem tokenize_append_newline {first : String} (clean : (tokenize first).2 = []) (rest : String) :
    tokenize (first ++ "\n" ++ rest) =
      ((tokenize first).1 ++ (tokenize rest).1.map (Lexeme.move (first.utf8ByteSize + 1)),
        (tokenize rest).2.map (LexError.move (first.utf8ByteSize + 1))) := by
  have closed : ¬ leavesOpen first.toList := by
    intro open_
    obtain ⟨kind, member, bad⟩ := exists_bad_of_leavesOpen open_
    exact (errors_tokenize first).mp clean kind member bad
  have text : (first ++ "\n" ++ rest).toList = (first.toList ++ ['\n']) ++ rest.toList := by
    simp
  have separate := isSeparate_of_closed closed
  have same : solids 0 (first.toList ++ ['\n']) = solids 0 first.toList := by
    rw [solids_append_newline 0 closed, solids_nil, List.append_nil]
  have size : byteLength (first.toList ++ ['\n']) = first.utf8ByteSize + 1 := by
    rw [byteLength_append, byteLength_toList]
    rfl
  rw [tokenize_eq] at clean ⊢
  rw [text, lexemesOf_append separate, errorsOf_append separate, lexemesOf, errorsOf, same, size, tokenize_eq,
    tokenize_eq]
  exact Prod.ext rfl (congrArg (· ++ _) clean)

/-- Tokens and strays have nothing but blanks and comments between them, and each is the longest that a rule allows. A
line feed behind a text without strays parts it from what follows. -/
theorem tokenize_partitions :
    (∀ source : String, ∃ marks, Partition 0 source.toList marks ∧
      tokenize source = (marks.filterMap lexeme?, marks.filterMap lexError?) ∧
      (marks.Pairwise fun a b => a.1.stop ≤ b.1.start) ∧
      ∀ at_ ∈ marks, ∃ before after, Placed 0 source.toList at_ before after) ∧
    ∀ first rest : String, (tokenize first).2 = [] →
      tokenize (first ++ "\n" ++ rest) =
        ((tokenize first).1 ++ (tokenize rest).1.map (Lexeme.move (first.utf8ByteSize + 1)),
          (tokenize rest).2.map (LexError.move (first.utf8ByteSize + 1))) := by
  refine ⟨fun source => ?_, fun first rest clean => tokenize_append_newline clean rest⟩
  have parts := partition_solids 0 source.toList
  exact ⟨solids 0 source.toList, parts, tokenize_eq source, parts.apart, parts.placed⟩

theorem tokenize_partitions_lines :
    (tokenize "x // c").2 = [] ∧
      (tokenize ("x // c" ++ "\n" ++ "y @")).1.map Lexeme.span = [⟨0, 1⟩, ⟨7, 8⟩] ∧
      (tokenize ("x // c" ++ "\n" ++ "y @")).2 = [⟨⟨9, 10⟩, ['@']⟩] := by
  have clean : (tokenize "x // c").2 = [] := by decide +kernel
  have both := tokenize_partitions.2 "x // c" "y @" clean
  refine ⟨clean, ?_, ?_⟩
  · rw [both, List.map_append]
    decide +kernel
  · rw [both]
    decide +kernel

end Stencil.Program
