import Mathlib
import CInventory.Proofs.Boundaries

/-!
# Overflow of positions

A walk over a text overflows where a count leaves its width on the way. Offsets and lines only
grow, so the end of the text decides for them. Columns start again behind each line feed, so every
line of the text decides for itself, and the position behind the text may fit although the walk
overflows.
-/

namespace CInventory.Position

/-! ## Lines of a text -/

private theorem step_column_of_ne (p : Position) {c : Char} (hc : c ≠ '\n') :
    (p.step c).column = p.column + 1 := by
  simp [step, hc]

/-- How far a walk from `p` counts the columns on each line of a text. The first line goes on at the
column of `p`, the others start at column 1. -/
def lineEnds (p : Position) (cs : List Char) : List Nat :=
  (cs.splitOn '\n').mapIdx fun i line => (if i = 0 then p.column else 1) + line.length

private theorem lineEnds_of_splitOn (p : Position) {cs first : List Char}
    {others : List (List Char)} (h : cs.splitOn '\n' = first :: others) :
    p.lineEnds cs = (p.column + first.length) :: others.map fun line => 1 + line.length := by
  have hothers : others.mapIdx (fun _ line => 1 + line.length) =
      others.map fun line => 1 + line.length := by
    apply List.ext_getElem <;> simp
  simpa [lineEnds, h, List.mapIdx_cons] using hothers

private theorem exists_splitOn (cs : List Char) :
    ∃ first others, cs.splitOn '\n' = first :: others :=
  List.exists_cons_of_ne_nil (List.splitOn_ne_nil '\n' cs)

@[simp] theorem lineEnds_nil (p : Position) : p.lineEnds [] = [p.column] := by
  simp [lineEnds]

theorem lineEnds_lineFeed (p : Position) (cs : List Char) :
    p.lineEnds ('\n' :: cs) = p.column :: (p.step '\n').lineEnds cs := by
  obtain ⟨first, others, hcs⟩ := exists_splitOn cs
  have hsplit : ('\n' :: cs).splitOn '\n' = [] :: first :: others := by
    simp [List.splitOn_cons_eq_if_modifyHead, hcs]
  rw [lineEnds_of_splitOn p hsplit, lineEnds_of_splitOn _ hcs]
  simp [step]

theorem lineEnds_of_ne (p : Position) {c : Char} (hc : c ≠ '\n') (cs : List Char) :
    p.lineEnds (c :: cs) = (p.step c).lineEnds cs := by
  obtain ⟨first, others, hcs⟩ := exists_splitOn cs
  have hsplit : (c :: cs).splitOn '\n' = (c :: first) :: others := by
    simp [List.splitOn_cons_eq_if_modifyHead, hc, hcs]
  rw [lineEnds_of_splitOn p hsplit, lineEnds_of_splitOn _ hcs, step_column_of_ne p hc,
    List.length_cons, Nat.add_assoc, Nat.add_comm 1]

/-- The line on which a walk starts ends no earlier than the walk starts. -/
theorem exists_mem_lineEnds (p : Position) (cs : List Char) :
    ∃ column ∈ p.lineEnds cs, p.column ≤ column := by
  obtain ⟨first, others, hcs⟩ := exists_splitOn cs
  rw [lineEnds_of_splitOn p hcs]
  exact ⟨_, List.mem_cons_self, Nat.le_add_right _ _⟩

/-! ## Counts on the way -/

/-- The columns on the way stay below a bound exactly when the lines end below it. -/
theorem columns_lt_iff (p : Position) (cs : List Char) (bound : Nat) :
    (∀ front, front <+: cs → (p.walk front).column < bound) ↔
      ∀ column ∈ p.lineEnds cs, column < bound := by
  induction cs generalizing p with
  | nil => simp
  | cons c cs ih =>
      rw [Text.forall_front_cons_iff]
      simp only [walk_nil, walk_cons]
      rw [ih (p.step c)]
      by_cases hc : c = '\n'
      · subst hc
        rw [lineEnds_lineFeed, List.forall_mem_cons]
      · rw [lineEnds_of_ne p hc, and_iff_right_iff_imp]
        -- The line goes on, so its end bounds the column in front of it as well.
        intro hends
        obtain ⟨column, hmem, hle⟩ := exists_mem_lineEnds (p.step c) cs
        have hlt := hends column hmem
        rw [step_column_of_ne p hc] at hle
        omega

/-- Some count leaves its width on the way over a text. -/
def Overflows (p : Position) (text : String) : Prop :=
  offsetBound ≤ p.offset + text.utf8ByteSize ∨
    countBound ≤ p.line + text.toList.count '\n' ∨
      ∃ column ∈ p.lineEnds text.toList, countBound ≤ column

instance (p : Position) (text : String) : Decidable (p.Overflows text) :=
  inferInstanceAs (Decidable (_ ∨ _ ∨ _))

/-- Nothing overflows exactly when every position on the way fits. -/
theorem not_overflows_iff {p : Position} {text : String} :
    ¬ p.Overflows text ↔
      ∀ front, front <+: text.toList → (p.walk front).fits = true := by
  have hcolumns := columns_lt_iff p text.toList countBound
  constructor
  · intro h
    simp only [Overflows, not_or, not_exists, not_and, Nat.not_le] at h
    obtain ⟨hoffset, hline, hends⟩ := h
    intro front hfront
    -- A front part has no more bytes and line feeds than the text.
    have hbytes := Text.byteLength_le_of_isPrefix hfront
    have hfeeds : front.count '\n' ≤ text.toList.count '\n' := hfront.sublist.count_le '\n'
    rw [Text.byteLength_toList] at hbytes
    rw [fits_iff, walk_offset, walk_line]
    exact ⟨by omega, by omega, hcolumns.mpr hends front hfront⟩
  · intro h
    have hcounts := fits_iff.mp (h text.toList List.prefix_rfl)
    rw [walk_offset, walk_line, Text.byteLength_toList] at hcounts
    have hends := hcolumns.mp fun front hfront => (fits_iff.mp (h front hfront)).2.2
    rintro (hoffset | hline | ⟨column, hmem, hle⟩)
    · omega
    · omega
    · exact absurd (hends column hmem) (by omega)

/-! ## The position behind a text -/

theorem walk_column (p : Position) (cs : List Char) :
    (p.walk cs).column =
      if '\n' ∈ cs then 1 + (cs.rtakeWhile (· ≠ '\n')).length else p.column + cs.length := by
  induction cs using List.reverseRecOn with
  | nil => simp
  | append_singleton cs c ih =>
      rw [walk_append, walk_cons, walk_nil]
      by_cases hc : c = '\n'
      · simp [step, hc]
      · have hlast : (cs ++ [c]).rtakeWhile (· ≠ '\n') = cs.rtakeWhile (· ≠ '\n') ++ [c] :=
          List.rtakeWhile_concat_pos _ _ _ (by simpa using hc)
        have hmem : '\n' ∈ cs ++ [c] ↔ '\n' ∈ cs := by simp [Ne.symm hc]
        simp only [step_column_of_ne _ hc, hmem, hlast, ih, List.length_append,
          List.length_singleton]
        split <;> omega

theorem order_walk_isLE (p : Position) (cs : List Char) : (p.order (p.walk cs)).isLE = true := by
  cases cs with
  | nil => simp [order]
  | cons c cs =>
      have hsize := c.utf8Size_pos
      have hoffset := walk_offset p (c :: cs)
      rw [Text.byteLength_cons] at hoffset
      have hlt : compare p.offset (p.walk (c :: cs)).offset = .lt :=
        Nat.compare_eq_lt.mpr (by omega)
      rw [order, hlt]
      rfl

/-- Walking over a text overflows exactly when its bytes, its line feeds or one of its lines do not
fit. Otherwise each count behind the text is the exact one, and the walk has not gone back. -/
theorem advanceAll_exact (start : Position) (text : String) (held : start.fits = true) :
    ((start.advanceAll text.toList).mapError Fault.message = .error "attempt to add with overflow" ↔
      start.Overflows text) ∧
    (¬ start.Overflows text → ∃ stop, start.advanceAll text.toList = .ok stop ∧
      stop.offset = start.offset + text.utf8ByteSize ∧
      stop.line = start.line + text.toList.count '\n' ∧
      stop.column = (if '\n' ∈ text.toList then
        1 + (text.toList.rtakeWhile (· ≠ '\n')).length else start.column + text.toList.length) ∧
      (start.order stop).isLE = true) := by
  have hok : ¬ start.Overflows text →
      start.advanceAll text.toList = .ok (start.walk text.toList) := by
    intro h
    exact advanceAll_of_fits (not_overflows_iff.mp h)
  refine ⟨⟨?_, ?_⟩, ?_⟩
  · intro hfault
    by_contra h
    rw [hok h] at hfault
    cases hfault
  · intro h
    have hunfit := mt not_overflows_iff.mpr (not_not.mpr h)
    rw [advanceAll_of_not_fits held hunfit]
    rfl
  · intro h
    refine ⟨start.walk text.toList, hok h, ?_, walk_line _ _, walk_column _ _, order_walk_isLE _ _⟩
    rw [walk_offset, Text.byteLength_toList]

/-- A line that ends in the last column is passed. One column further on the walk overflows, though
the position behind the text would fit. -/
theorem advanceAll_exact_lastColumn :
    (⟨0, 1, 4294967294⟩ : Position).fits = true ∧
    (∃ stop, (⟨0, 1, 4294967294⟩ : Position).advanceAll "é\nab".toList = .ok stop ∧
      stop.offset = 5 ∧ stop.line = 2 ∧ stop.column = 3) ∧
    (⟨0, 1, 4294967295⟩ : Position).fits = true ∧
    ((⟨0, 1, 4294967295⟩ : Position).walk "é\nab".toList).fits = true ∧
    ((⟨0, 1, 4294967295⟩ : Position).advanceAll "é\nab".toList).mapError Fault.message =
      .error "attempt to add with overflow" := by
  have hlast : (⟨0, 1, 4294967294⟩ : Position).fits = true := by decide
  have hpast : (⟨0, 1, 4294967295⟩ : Position).fits = true := by decide
  obtain ⟨stop, hstop, hoffset, hline, hcolumn, -⟩ :=
    (advanceAll_exact _ "é\nab" hlast).2 (by decide +kernel)
  refine ⟨hlast, ⟨stop, hstop, ?_, ?_, ?_⟩, hpast, by decide +kernel, ?_⟩
  · rw [hoffset]; decide +kernel
  · rw [hline]; decide +kernel
  · rw [hcolumn]; decide +kernel
  · exact (advanceAll_exact _ "é\nab" hpast).1.mpr (by decide +kernel)

end CInventory.Position
