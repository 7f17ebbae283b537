import Mathlib
import CInventory.Proofs.Boundaries
import CInventory.Proofs.SafeRuns

/-!
# Cursors under any moves

A cursor may be moved by any of its operations, in any order. Whatever the operation, it passes a
front part of the text ahead, so the cursor stays in its source: the text ahead is what the source
has from the offset on, and the position is the one counted over the text in front. `Follows` lists
what this comes to.
-/

namespace CInventory.Scan.Cursor

/-! ## Moves -/

/-- An operation that moves a cursor. The others only look, and may come between any two moves. -/
inductive Move where
  | advance
  | advanceTo (offset : Nat)
  | advanceWhile (p : Char → Bool)
  | skipBlanks
  | skipLineComment
  | skipBlockComment

def Move.apply (c : Cursor) : Move → Except Fault Cursor
  | .advance => c.advance.map Prod.snd
  | .advanceTo offset => c.advanceTo offset
  | .advanceWhile p => (c.advanceWhile p).map Prod.snd
  | .skipBlanks => c.skipBlanks.map Prod.snd
  | .skipLineComment => c.skipLineComment.map Prod.snd
  | .skipBlockComment => c.skipBlockComment.map Prod.snd

def moveAll (c : Cursor) (moves : List Move) : Except Fault Cursor := moves.foldlM Move.apply c

def advanceAfter (c : Cursor) : Nat → Except Fault (Option Char)
  | 0 => c.advance.map Prod.fst
  | n + 1 => c.advance >>= fun moved => moved.2.advanceAfter n

/-- What the source has from the offset on; nothing where no character starts there. -/
def remaining (c : Cursor) : List Char :=
  ((Text.cut? c.source.toList c.position.offset).map Prod.snd).getD []

theorem map_snd_moveOver {α : Type} (c : Cursor) (taken rest : List Char) (a : α) :
    (c.moveOver taken rest >>= fun after => .ok (a, after)).map Prod.snd =
      c.moveOver taken rest := by
  cases c.moveOver taken rest <;> rfl

/-- Every move passes a front part of the text ahead. -/
theorem Move.apply_eq_moveOver (m : Move) (c : Cursor) :
    ∃ taken rest, c.rest = taken ++ rest ∧ m.apply c = c.moveOver taken rest := by
  have hstay : .ok c = c.moveOver [] c.rest := rfl
  cases m with
  | advance =>
      cases hrest : c.rest with
      | nil =>
          refine ⟨[], [], rfl, ?_⟩
          rw [hrest] at hstay
          simp only [apply, Cursor.advance, hrest]
          exact hstay
      | cons x rest =>
          refine ⟨[x], rest, rfl, ?_⟩
          simp only [apply, Cursor.advance, hrest]
          exact map_snd_moveOver c [x] rest (some x)
  | advanceTo offset =>
      exact ⟨_, _, (Text.takeBytes_whole c.rest (offset - c.position.offset)).symm, rfl⟩
  | advanceWhile p =>
      exact ⟨_, _, List.takeWhile_append_dropWhile.symm,
        map_snd_moveOver c _ _ (c.rest.takeWhile p)⟩
  | skipBlanks =>
      refine ⟨_, _, (List.takeWhile_append_dropWhile (p := Text.isAsciiBlank)).symm, ?_⟩
      rw [apply, Cursor.skipBlanks, Cursor.advanceWhile]
      cases c.moveOver _ _ <;> rfl
  | skipLineComment =>
      cases hcomment : lineComment? c.rest with
      | none =>
          refine ⟨[], c.rest, rfl, ?_⟩
          simp only [apply, Cursor.skipLineComment, hcomment]
          exact hstay
      | some found =>
          refine ⟨found.1, found.2, (lineComment?_append hcomment).symm, ?_⟩
          simp only [apply, Cursor.skipLineComment, hcomment]
          exact map_snd_moveOver c found.1 found.2 true
  | skipBlockComment =>
      cases hcomment : blockComment? c.rest with
      | none =>
          refine ⟨[], c.rest, rfl, ?_⟩
          simp only [apply, Cursor.skipBlockComment, hcomment]
          exact hstay
      | some found =>
          refine ⟨found.text, found.rest, (blockComment?_append hcomment).symm, ?_⟩
          simp only [apply, Cursor.skipBlockComment, hcomment]
          exact map_snd_moveOver c found.text found.rest (some found.closed)

/-! ## Cursors in place -/

namespace InPlace

variable {c : Cursor} {source : String} {passed : List Char}

theorem cut? (place : c.InPlace source passed) :
    Text.cut? source.toList c.position.offset = some (passed, c.rest) :=
  Text.cut?_eq_some_iff.mpr ⟨place.text, place.offset.symm⟩

theorem remaining (place : c.InPlace source passed) : c.remaining = c.rest := by
  rw [Cursor.remaining, place.same, place.cut?]
  rfl

/-- The text ahead is empty exactly where the bytes of the source are used up. -/
theorem isAtEnd (place : c.InPlace source passed) :
    c.isAtEnd = decide (source.utf8ByteSize ≤ c.position.offset) := by
  rw [Cursor.isAtEnd, place.size]
  cases hrest : c.rest with
  | nil => simp
  | cons x rest =>
      have hsize := x.utf8Size_pos
      simp
      omega

theorem exists_apply (place : c.InPlace source passed) (fit : PositionsFit source.toList)
    (m : Move) : ∃ taken after, m.apply c = .ok after ∧ after.InPlace source (passed ++ taken) := by
  obtain ⟨taken, rest, hc, hmove⟩ := m.apply_eq_moveOver c
  obtain ⟨after, hafter⟩ := place.exists_moveOver fit hc
  exact ⟨taken, after, hmove.trans hafter, place.moved hc hafter⟩

theorem exists_moveAll (place : c.InPlace source passed) (fit : PositionsFit source.toList)
    (moves : List Move) :
    ∃ taken after, c.moveAll moves = .ok after ∧ after.InPlace source (passed ++ taken) := by
  induction moves generalizing c passed with
  | nil => exact ⟨[], c, rfl, by rwa [List.append_nil]⟩
  | cons m moves ih =>
      obtain ⟨first, moved, hmoved, later⟩ := place.exists_apply fit m
      obtain ⟨more, after, hafter, last⟩ := ih later
      refine ⟨first ++ more, after, ?_, by rwa [← List.append_assoc]⟩
      rw [moveAll, List.foldlM_cons, hmoved]
      exact hafter

theorem exists_advance (place : c.InPlace source passed) (fit : PositionsFit source.toList) :
    ∃ taken after, c.advance = .ok (c.peek? 0, after) ∧ after.rest = c.rest.tail ∧
      after.InPlace source (passed ++ taken) := by
  cases hrest : c.rest with
  | nil =>
      refine ⟨[], c, ?_, hrest, by rwa [List.append_nil]⟩
      simp only [advance, peek?, hrest]
      rfl
  | cons x rest =>
      have hc : c.rest = [x] ++ rest := hrest
      obtain ⟨after, hmove⟩ := place.exists_moveOver fit hc
      refine ⟨[x], after, ?_, rest_of_moveOver hmove, place.moved hc hmove⟩
      simp only [advance, peek?, hrest, hmove]
      rfl

/-- Looking ahead shows what advancing returns. -/
theorem advanceAfter_eq (place : c.InPlace source passed) (fit : PositionsFit source.toList)
    (n : Nat) : c.advanceAfter n = .ok (c.peek? n) := by
  induction n generalizing c passed with
  | zero =>
      obtain ⟨taken, after, hstep, -, -⟩ := place.exists_advance fit
      rw [advanceAfter, hstep]
      rfl
  | succ n ih =>
      obtain ⟨taken, after, hstep, hrest, later⟩ := place.exists_advance fit
      have hpeek : after.peek? n = c.peek? (n + 1) := by
        rw [peek?, peek?, hrest, List.getElem?_tail]
      rw [advanceAfter, hstep, ← hpeek]
      exact ih later

/-- Advancing to an offset stops at the first boundary that is neither in front of the cursor nor
in front of the offset, or of the end of the source where the offset lies behind it. -/
theorem isLeast_advanceTo {after : Cursor} {n : Nat} (place : c.InPlace source passed)
    (h : c.advanceTo n = .ok after) :
    IsLeast {offset | (Text.cut? source.toList offset).isSome = true ∧
      c.position.offset ≤ offset ∧ min n source.utf8ByteSize ≤ offset} after.position.offset := by
  have hwhole := Text.takeBytes_whole c.rest (n - c.position.offset)
  have hreach := Text.takeBytes_reaches c.rest (n - c.position.offset)
  have later := place.moved hwhole.symm h
  have hoffset := place.offset
  have hlater := later.offset
  have hsize := place.size
  rw [Text.byteLength_append] at hlater
  refine ⟨⟨by rw [later.cut?]; rfl, by omega, by omega⟩, ?_⟩
  rintro offset ⟨hboundary, hforward, htarget⟩
  obtain ⟨⟨front, back⟩, hcut⟩ := Option.isSome_iff_exists.mp hboundary
  obtain ⟨hsplit, rfl⟩ := Text.cut?_eq_some_iff.mp hcut
  -- The boundary lies behind a front part of the text ahead.
  obtain ⟨more, rfl⟩ : passed <+: front := by
    refine Text.prefix_of_byteLength_le ⟨c.rest, place.text.symm⟩ ⟨back, hsplit.symm⟩ ?_
    rwa [← hoffset]
  have hmore : more <+: c.rest := by
    rw [place.text, List.append_assoc, List.append_cancel_left_eq] at hsplit
    exact ⟨back, hsplit.symm⟩
  rw [Text.byteLength_append] at htarget ⊢
  have henough : min (n - c.position.offset) (Text.byteLength c.rest) ≤ Text.byteLength more := by
    omega
  have hshort := Text.byteLength_le_of_isPrefix (Text.takeBytes_shortest hmore henough)
  omega

end InPlace

/-! ## Any moves -/

structure Follows (c : Cursor) (source : String) : Prop where
  same : c.source = source
  inside : c.position.offset ≤ source.utf8ByteSize
  /-- The offset is a boundary of the source: in front of it stands the text that the position
  counts, from it on the text ahead. -/
  place : ∃ passed, Text.cut? source.toList c.position.offset = some (passed, c.rest) ∧
    Position.start.advanceAll passed = .ok c.position
  remaining : c.remaining = c.rest
  atEnd : c.isAtEnd = decide (source.utf8ByteSize ≤ c.position.offset)
  ahead : ∀ n, c.advanceAfter n = .ok (c.peek? n)
  /-- No move goes back. -/
  forward : ∀ m : Move, ∃ after, m.apply c = .ok after ∧ c.position.offset ≤ after.position.offset
  /-- Advancing to an offset stops at the first boundary that is not in front of the cursor, nor of
  the offset or the end of the source, whichever comes first. -/
  upTo : ∀ n, ∃ after, c.advanceTo n = .ok after ∧
    IsLeast {offset | (Text.cut? source.toList offset).isSome = true ∧
      c.position.offset ≤ offset ∧ min n source.utf8ByteSize ≤ offset} after.position.offset

theorem InPlace.follows {c : Cursor} {source : String} {passed : List Char}
    (place : c.InPlace source passed) (fit : PositionsFit source.toList) : c.Follows source where
  same := place.same
  inside := by
    rw [place.size]
    exact Nat.le_add_right _ _
  place := by
    refine ⟨passed, place.cut?, ?_⟩
    rw [place.position]
    rw [place.text] at fit
    exact Position.advanceAll_of_fits fit.of_append
  remaining := place.remaining
  atEnd := place.isAtEnd
  ahead := place.advanceAfter_eq fit
  forward := by
    intro m
    obtain ⟨taken, after, hafter, later⟩ := place.exists_apply fit m
    refine ⟨after, hafter, ?_⟩
    rw [place.offset, later.offset, Text.byteLength_append]
    exact Nat.le_add_right _ _
  upTo := by
    intro n
    obtain ⟨taken, after, hafter, -⟩ := place.exists_apply fit (.advanceTo n)
    exact ⟨after, hafter, place.isLeast_advanceTo hafter⟩

/-- In a source whose positions fit their widths, any moves succeed, and leave a cursor that follows
the source. -/
theorem moveAll_follows (source : String) (moves : List Move) (fit : PositionsFit source.toList) :
    ∃ c, (Cursor.ofSource source).moveAll moves = .ok c ∧ c.Follows source := by
  obtain ⟨taken, c, hmoves, place⟩ := (InPlace.ofSource source).exists_moveAll fit moves
  exact ⟨c, hmoves, place.follows fit⟩

/-- A character of two bytes that is asked for from its middle, a comment, and an offset behind the
end of the source. -/
theorem moveAll_follows_insideCharacter :
    PositionsFit "é/*é\n*/ b".toList ∧
    ((Cursor.ofSource "é/*é\n*/ b").moveAll
      [.advanceTo 1, .skipBlockComment, .skipBlanks]).map Cursor.position = .ok ⟨10, 2, 4⟩ ∧
    ∃ c, (Cursor.ofSource "é/*é\n*/ b").moveAll
      [.advanceTo 1, .skipBlockComment, .skipBlanks, .advanceTo 100] = .ok c ∧
      c.Follows "é/*é\n*/ b" := by
  have fit : PositionsFit "é/*é\n*/ b".toList := Position.positionsFit_of_byteLength (by decide)
  exact ⟨fit, by decide, moveAll_follows _ _ fit⟩

end CInventory.Scan.Cursor
