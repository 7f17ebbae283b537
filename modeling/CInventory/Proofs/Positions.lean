import CInventory.Position

/-!
# Positions in a whole text

The checked walk over a text succeeds exactly when every position in the text fits its width,
and then it agrees with the unbounded walk. A walk that starts later in a source differs from
one at its start by a shift of bytes and lines.
-/

namespace CInventory

theorem Text.length_le_byteLength (cs : List Char) : cs.length ≤ Text.byteLength cs := by
  induction cs with
  | nil => simp
  | cons c cs ih =>
      have hsize := c.utf8Size_pos
      rw [List.length_cons, Text.byteLength_cons]
      omega

/-- The position behind each front part of a text fits its width. -/
def PositionsFit (cs : List Char) : Prop :=
  ∀ front, front <+: cs → (Position.start.walk front).fits = true

namespace Position

theorem fits_iff {p : Position} :
    p.fits = true ↔ p.offset < offsetBound ∧ p.line < countBound ∧ p.column < countBound := by
  simp [fits, and_assoc]

theorem advance_of_fits {p : Position} {c : Char} (h : (p.step c).fits = true) :
    p.advance c = .ok (p.step c) := by
  rw [advance, if_pos h]

theorem advanceAll_cons (p : Position) (c : Char) (cs : List Char) :
    p.advanceAll (c :: cs) = p.advance c >>= fun q => q.advanceAll cs := by
  rw [advanceAll, List.foldlM_cons]
  rfl

theorem advanceAll_append (p : Position) (xs ys : List Char) :
    p.advanceAll (xs ++ ys) = p.advanceAll xs >>= fun q => q.advanceAll ys := by
  simp [advanceAll]

theorem advanceAll_of_fits {p : Position} {cs : List Char}
    (fit : ∀ front, front <+: cs → (p.walk front).fits = true) :
    p.advanceAll cs = .ok (p.walk cs) := by
  induction cs generalizing p with
  | nil => rfl
  | cons c cs ih =>
      have htail := (Text.forall_front_cons_iff.mp fit).2
      have hstep : (p.step c).fits = true := htail [] List.nil_prefix
      rw [advanceAll_cons, advance_of_fits hstep, walk_cons]
      exact ih htail

/-- A walk fails only by overflow, at the first position that does not fit. -/
theorem advanceAll_of_not_fits {p : Position} {cs : List Char} (start : p.fits = true)
    (unfit : ¬ ∀ front, front <+: cs → (p.walk front).fits = true) :
    p.advanceAll cs = .error .overflow := by
  induction cs generalizing p with
  | nil =>
      refine absurd ?_ unfit
      intro front hfront
      rw [List.prefix_nil.mp hfront]
      exact start
  | cons c cs ih =>
      rw [advanceAll_cons]
      by_cases hstep : (p.step c).fits = true
      · rw [advance_of_fits hstep]
        apply ih hstep
        intro fit
        exact unfit (Text.forall_front_cons_iff.mpr ⟨start, fit⟩)
      · rw [advance, if_neg hstep]
        rfl

/-! ## Lines, columns and shifts -/

theorem walk_line (p : Position) (cs : List Char) :
    (p.walk cs).line = p.line + cs.count '\n' := by
  induction cs generalizing p with
  | nil => simp
  | cons c cs ih =>
      rw [walk_cons, ih, List.count_cons]
      by_cases hc : c = '\n' <;> simp [step, hc]
      omega

private theorem walk_column_le (p : Position) (cs : List Char) :
    (p.walk cs).column ≤ max p.column 1 + cs.length := by
  induction cs generalizing p with
  | nil =>
      rw [walk_nil, List.length_nil]
      omega
  | cons c cs ih =>
      have hstep : (p.step c).column ≤ max p.column 1 + 1 := by
        unfold step
        split
        · exact Nat.le_add_left 1 _
        · exact Nat.add_le_add_right (Nat.le_max_left _ _) 1
      have hrest := ih (p.step c)
      rw [walk_cons, List.length_cons]
      omega

def shift (p : Position) (bytes lines : Nat) : Position :=
  ⟨p.offset + bytes, p.line + lines, p.column⟩

theorem step_shift (p : Position) (bytes lines : Nat) (c : Char) :
    (p.shift bytes lines).step c = (p.step c).shift bytes lines := by
  unfold step shift
  split <;> simp <;> omega

theorem walk_shift (p : Position) (bytes lines : Nat) (cs : List Char) :
    (p.shift bytes lines).walk cs = (p.walk cs).shift bytes lines := by
  induction cs generalizing p with
  | nil => rfl
  | cons c cs ih => rw [walk_cons, step_shift, ih, walk_cons]

/-- A line feed behind any text leads to the start of a line, shifted by that text. -/
theorem walk_lineFeed (cs : List Char) :
    start.walk (cs ++ ['\n']) = start.shift (Text.byteLength cs + 1) (cs.count '\n' + 1) := by
  have hline := walk_line start cs
  have hoffset := walk_offset start cs
  rw [walk_append, walk_cons, walk_nil, step, if_pos rfl, hline, hoffset]
  simp [shift, start]
  omega

structure Within (p q : Position) : Prop where
  offset : p.offset ≤ q.offset
  line : p.line ≤ q.line
  column : p.column ≤ q.column

theorem Within.step {p q : Position} (h : p.Within q) (c : Char) :
    (p.step c).Within (q.step c) := by
  obtain ⟨hoffset, hline, hcolumn⟩ := h
  unfold Position.step
  split
  · exact ⟨Nat.add_le_add_right hoffset 1, Nat.add_le_add_right hline 1, Nat.le_refl 1⟩
  · exact ⟨Nat.add_le_add_right hoffset _, hline, Nat.add_le_add_right hcolumn 1⟩

theorem Within.walk {p q : Position} (h : p.Within q) (cs : List Char) :
    (p.walk cs).Within (q.walk cs) := by
  induction cs generalizing p q with
  | nil => exact h
  | cons c cs ih => exact ih (h.step c)

theorem Within.fits {p q : Position} (h : p.Within q) (hq : q.fits = true) : p.fits = true := by
  have hoffset := h.offset
  have hline := h.line
  have hcolumn := h.column
  rw [fits_iff] at hq ⊢
  omega

theorem column_walk_pos {p : Position} (h : 0 < p.column) (cs : List Char) :
    0 < (p.walk cs).column := by
  induction cs generalizing p with
  | nil => exact h
  | cons c cs ih =>
      apply ih
      unfold step
      split <;> exact Nat.succ_pos _

theorem start_within_walk (cs : List Char) : start.Within (start.walk cs) where
  offset := Nat.zero_le _
  line := by
    rw [walk_line]
    exact Nat.le_add_right _ _
  column := column_walk_pos Nat.one_pos cs

theorem positionsFit_of_byteLength {cs : List Char} (short : Text.byteLength cs + 1 < countBound) :
    PositionsFit cs := by
  rintro front ⟨back, rfl⟩
  rw [Text.byteLength_append] at short
  have hoffset := walk_offset start front
  have hline := walk_line start front
  have hcolumn := walk_column_le start front
  have hcount := List.count_le_length (a := '\n') (l := front)
  have hlength := Text.length_le_byteLength front
  rw [fits_iff]
  simp only [start, countBound, offsetBound] at *
  omega

end Position

theorem PositionsFit.of_append {front back : List Char} (fit : PositionsFit (front ++ back)) :
    PositionsFit front := by
  rintro part ⟨more, rfl⟩
  exact fit part ⟨more ++ back, by simp⟩

/-- What stands behind any text has no larger positions on its own. -/
theorem PositionsFit.of_append_right {front back : List Char}
    (fit : PositionsFit (front ++ back)) : PositionsFit back := by
  rintro part ⟨more, rfl⟩
  have hjoined : (Position.start.walk (front ++ part)).fits = true := fit _ ⟨more, by simp⟩
  rw [Position.walk_append] at hjoined
  exact ((Position.start_within_walk front).walk part).fits hjoined

theorem PositionsFit.of_lineFeed {front back : List Char}
    (fit : PositionsFit (front ++ '\n' :: back)) : PositionsFit back := by
  rw [List.append_cons] at fit
  exact fit.of_append_right

end CInventory
