import Mathlib.Data.List.TakeWhile
import Stencil.Proofs.Program.Moving
import Stencil.Proofs.Program.Source

/-! Where the pieces of a text stand.

A text is lexed the same wherever it stands, only moved. Behind a line feed that no open string takes in, the
pieces that count stand where they do in the rest alone, moved by the length of the first part.
-/

set_option autoImplicit false

namespace Stencil.Program

theorem byteLength_append (first rest : List Char) :
    byteLength (first ++ rest) = byteLength first + byteLength rest := by
  have from_ : ∀ (text : List Char) (start : Nat),
      text.foldl (fun length c => length + c.utf8Size) start = start + byteLength text := by
    intro text
    induction text with
    | nil => exact fun start => rfl
    | cons c text ih =>
      intro start
      rw [byteLength, List.foldl_cons, List.foldl_cons, ih, ih (0 + c.utf8Size), Nat.zero_add, Nat.add_assoc]
  rw [byteLength, List.foldl_append, from_]
  rfl

theorem byteLength_cons (c : Char) (rest : List Char) : byteLength (c :: rest) = c.utf8Size + byteLength rest :=
  (byteLength_append [c] rest).trans (by simp [byteLength])

theorem byteLength_toList (text : String) : byteLength text.toList = text.utf8ByteSize := by
  have ofList : ∀ characters : List Char, byteLength characters = (String.ofList characters).utf8ByteSize := by
    intro characters
    induction characters with
    | nil => rfl
    | cons c rest ih =>
      rw [byteLength_cons, ih, ← String.utf8ByteSize_singleton, ← String.utf8ByteSize_append]
      congr 1
      apply String.toList_injective
      simp
  rw [ofList, String.ofList_toList]

theorem length_le_byteLength (text : List Char) : text.length ≤ byteLength text := by
  induction text with
  | nil => exact Nat.le_refl _
  | cons c rest ih =>
    have positive := c.utf8Size_pos
    rw [byteLength_cons, List.length_cons]
    omega

/-- The pieces of a text that count, with their places, where the text begins at the given offset. -/
def solids (offset : Nat) (text : List Char) : List (Span × Piece) :=
  (placed offset (pieces text)).filter fun at_ => !at_.2.kind.isSkipped

def movePiece (distance : Nat) : Span × Piece → Span × Piece
  | (span, piece) => (span.move distance, piece)

section

variable (offset : Nat)

theorem solids_nil : solids offset [] = [] := by
  rw [solids, pieces]
  rfl

theorem solids_cons (c : Char) (rest : List Char) :
    solids offset (c :: rest) =
      ([(⟨offset, offset + byteLength (c :: (nextPiece c rest).tail)⟩,
        (⟨(nextPiece c rest).kind, c :: (nextPiece c rest).tail⟩ : Piece))].filter
          fun at_ => !at_.2.kind.isSkipped) ++
        solids (offset + byteLength (c :: (nextPiece c rest).tail)) (nextPiece c rest).rest := by
  rw [solids, pieces, placed, ← List.singleton_append, List.filter_append]
  rfl

theorem solids_space {c : Char} (space : isSpace c) (rest : List Char) :
    solids offset (c :: rest) = solids (offset + c.utf8Size) rest := by
  have cut : nextPiece c rest = ⟨.skipped, rest.takeWhile isSpace, rest.dropWhile isSpace⟩ := by
    rw [nextPiece, if_pos space]
    rfl
  rw [solids_cons, cut]
  cases rest with
  | nil => exact (solids_nil _).trans (solids_nil _).symm
  | cons d rest =>
    by_cases more : isSpace d
    · have cut' : nextPiece d rest = ⟨.skipped, rest.takeWhile isSpace, rest.dropWhile isSpace⟩ := by
        rw [nextPiece, if_pos more]
        rfl
      rw [solids_cons (offset + c.utf8Size), cut', List.takeWhile_cons_of_pos more,
        List.dropWhile_cons_of_pos more, byteLength_cons c, ← Nat.add_assoc]
      rfl
    · rw [List.takeWhile_cons_of_neg more, List.dropWhile_cons_of_neg more, byteLength_cons c]
      rfl

theorem solids_spaces {blanks : List Char} (spaces : ∀ c ∈ blanks, isSpace c) (rest : List Char) :
    solids offset (blanks ++ rest) = solids (offset + byteLength blanks) rest := by
  induction blanks generalizing offset with
  | nil => rfl
  | cons c blanks ih =>
    rw [List.cons_append, solids_space offset (spaces c List.mem_cons_self),
      ih _ fun d member => spaces d (List.mem_cons_of_mem _ member), byteLength_cons, Nat.add_assoc]

theorem solids_append_newline {text : List Char} (closed : ¬ leavesOpen text) (more : List Char) :
    solids offset (text ++ '\n' :: more) =
      solids offset text ++ solids (offset + byteLength (text ++ ['\n'])) more := by
  induction text using pieces.induct generalizing offset with
  | case1 =>
    rw [List.nil_append, solids_space offset rfl, solids_nil]
    rfl
  | case2 c rest ih =>
    have ih := fun offset => ih offset fun open_ => closed (leavesOpen_rest c rest open_)
    by_cases space : isSpace c
    · -- A blank may go on into the next line, so that its piece is not the same in both texts.
      have after : (nextPiece c rest).rest = rest.dropWhile isSpace := by
        rw [nextPiece, if_pos space]
        rfl
      have spaces : ∀ d ∈ c :: rest.takeWhile isSpace, isSpace d := by
        rintro d (_ | ⟨_, member⟩)
        · exact space
        · exact List.mem_takeWhile_imp member
      have whole : c :: rest = (c :: rest.takeWhile isSpace) ++ rest.dropWhile isSpace := by
        rw [List.cons_append, List.takeWhile_append_dropWhile]
      rw [after] at ih
      rw [whole, List.append_assoc, solids_spaces _ spaces, solids_spaces _ spaces, ih, List.append_assoc,
        byteLength_append (c :: _), Nat.add_assoc]
    · rw [List.cons_append, solids_cons, solids_cons offset c rest,
        nextPiece_append_newline (Bool.eq_false_iff.mpr space) closed, List.append_assoc]
      have total : offset + byteLength (c :: (nextPiece c rest).tail) +
          byteLength ((nextPiece c rest).rest ++ ['\n']) = offset + byteLength (c :: rest ++ ['\n']) := by
        rw [Nat.add_assoc, ← byteLength_append, List.cons_append, ← List.append_assoc, nextPiece_append,
          List.cons_append]
      rw [← total]
      exact congrArg _ (ih _)

theorem kinds_solids (text : List Char) :
    (solids offset text).map (fun at_ => at_.2.kind) = marks text := by
  have kinds : ∀ (cut : List Piece) (offset : Nat),
      ((placed offset cut).filter fun at_ => !at_.2.kind.isSkipped).map (fun at_ => at_.2.kind) =
        (cut.map Piece.kind).filter fun kind => !kind.isSkipped := by
    intro cut
    induction cut with
    | nil => exact fun _ => rfl
    | cons piece rest ih =>
      intro offset
      obtain ⟨kind, text⟩ := piece
      rw [placed, List.map_cons, List.filter_cons, List.filter_cons, ← ih (offset + byteLength text)]
      cases kind <;> rfl
  exact kinds (pieces text) offset

theorem solids_move (distance : Nat) (text : List Char) :
    solids (offset + distance) text = (solids offset text).map (movePiece distance) := by
  have moved : ∀ (cut : List Piece) (offset : Nat),
      placed (offset + distance) cut = (placed offset cut).map (movePiece distance) := by
    intro cut
    induction cut with
    | nil => exact fun _ => rfl
    | cons piece rest ih =>
      intro offset
      simp only [placed, List.map_cons, movePiece, Span.move, ← ih, Nat.add_right_comm]
  rw [solids, solids, moved, List.filter_map]
  rfl

theorem solids_places (text : List Char) :
    (solids offset text).Pairwise (fun a b => a.1.start ≤ b.1.start) ∧
      ∀ a ∈ solids offset text, offset ≤ a.1.start ∧ a.1.start < offset + byteLength text := by
  induction text using pieces.induct generalizing offset with
  | case1 =>
    rw [solids_nil]
    exact ⟨.nil, by simp⟩
  | case2 c rest ih =>
    obtain ⟨sorted, within⟩ := ih (offset + byteLength (c :: (nextPiece c rest).tail))
    have positive : 0 < c.utf8Size := c.utf8Size_pos
    have length : byteLength (c :: rest) =
        byteLength (c :: (nextPiece c rest).tail) + byteLength (nextPiece c rest).rest := by
      rw [← byteLength_append, List.cons_append, nextPiece_append]
    -- A piece is of one byte at least, so that the next one begins behind it.
    have some : 0 < byteLength (c :: (nextPiece c rest).tail) := by
      rw [byteLength_cons]
      omega
    rw [solids_cons, length]
    rw [List.pairwise_append, List.forall_mem_append]
    refine ⟨⟨(List.pairwise_singleton _ _).filter _, sorted, fun a first b later => ?_⟩, fun a first => ?_,
      fun b later => ?_⟩
    · obtain rfl := List.mem_singleton.mp (List.mem_filter.mp first).1
      have := (within b later).1
      dsimp only
      omega
    · obtain rfl := List.mem_singleton.mp (List.mem_filter.mp first).1
      dsimp only
      omega
    · have := within b later
      omega

end

end Stencil.Program
