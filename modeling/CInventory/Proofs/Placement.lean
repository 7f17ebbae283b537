import Mathlib
import CInventory.Proofs.Segmentation
import CInventory.Text.Lines

/-!
# Declarations and the text they point to

The span of a declaration is a pair of counted positions, and its text is what the scan took.
Cutting the source at the byte offsets of the span gives the same text back, and looking up its
line and column leads to its first line.
-/

namespace CInventory

/-! ## Lines and columns -/

/-- The line that a text ends in starts behind its last line feed. -/
theorem exists_last_line (cs : List Char) :
    ∃ above line, cs = above ++ line ∧ '\n' ∉ line ∧
      (above = [] ∨ ∃ xs, above = xs ++ ['\n']) := by
  induction cs with
  | nil => exact ⟨[], [], rfl, by simp, .inl rfl⟩
  | cons c cs ih =>
      obtain ⟨above, line, rfl, hline, rfl | ⟨xs, rfl⟩⟩ := ih
      · by_cases hc : c = '\n'
        · exact ⟨[c], line, rfl, hline, .inr ⟨[], by simp [hc]⟩⟩
        · refine ⟨[], c :: line, rfl, ?_, .inl rfl⟩
          simp [hline, Ne.symm hc]
      · exact ⟨c :: (xs ++ ['\n']), line, rfl, hline, .inr ⟨c :: xs, rfl⟩⟩

theorem Position.walk_column_of_line (p : Position) {line : List Char} (h : '\n' ∉ line) :
    (p.walk line).column = p.column + line.length := by
  induction line generalizing p with
  | nil => rfl
  | cons c line ih =>
      rw [List.mem_cons, not_or] at h
      rw [walk_cons, ih _ h.2, step, if_neg (Ne.symm h.1), List.length_cons]
      dsimp only
      omega

private theorem length_splitOn_lineFeed (cs : List Char) :
    (cs.splitOn '\n').length = cs.count '\n' + 1 := by
  induction cs with
  | nil => rfl
  | cons c cs ih =>
      rw [List.splitOn_cons_eq_if_modifyHead, List.count_cons]
      split <;> simp_all

private theorem head_splitOn_lineFeed (cs : List Char) :
    (cs.splitOn '\n')[0]? = some (cs.takeWhile Scan.isNotLineFeed) := by
  induction cs with
  | nil => rfl
  | cons c cs ih =>
      rw [List.splitOn_cons_eq_if_modifyHead, List.takeWhile_cons]
      by_cases hc : c = '\n'
      · simp [hc, Scan.isNotLineFeed]
      · simp [hc, Scan.isNotLineFeed, ih]

/-- Behind any front part, line and column lead to what stands there. -/
theorem line_lookup (front rest : List Char) :
    ∃ piece,
      ((front ++ rest).splitOn '\n')[(Position.start.walk front).line - 1]? = some piece ∧
      piece.drop ((Position.start.walk front).column - 1) =
        rest.takeWhile Scan.isNotLineFeed := by
  obtain ⟨above, line, rfl, hline, habove⟩ := exists_last_line front
  have hstart : (Position.start.walk above).column = 1 := by
    rcases habove with rfl | ⟨xs, rfl⟩
    · rfl
    · rw [Position.walk_lineFeed]
      rfl
  have hcolumn : (Position.start.walk (above ++ line)).column - 1 = line.length := by
    rw [Position.walk_append, Position.walk_column_of_line _ hline, hstart]
    omega
  have hnumber : (Position.start.walk (above ++ line)).line - 1 = above.count '\n' := by
    rw [Position.walk_line, List.count_append, List.count_eq_zero.mpr hline]
    simp [Position.start]
  have hpiece : (line ++ rest).takeWhile Scan.isNotLineFeed =
      line ++ rest.takeWhile Scan.isNotLineFeed :=
    List.takeWhile_append_of_pos (Scan.isNotLineFeed_iff_not_mem.mpr hline)
  refine ⟨line ++ rest.takeWhile Scan.isNotLineFeed, ?_, ?_⟩
  · rw [hnumber, List.append_assoc, ← hpiece]
    rcases habove with rfl | ⟨xs, rfl⟩
    · exact head_splitOn_lineFeed (line ++ rest)
    · have hlength : (xs.splitOn '\n').length = (xs ++ ['\n']).count '\n' := by
        rw [length_splitOn_lineFeed]
        simp
      rw [List.append_assoc, List.singleton_append, List.splitOn_append_cons_self,
        List.getElem?_append_right (Nat.le_of_eq hlength), hlength, Nat.sub_self]
      exact head_splitOn_lineFeed (line ++ rest)
  · rw [hcolumn, List.drop_left]

private theorem lineCountAux_ge (count : Nat) (fresh : Bool) (cs : List Char) :
    count ≤ Text.lineCountAux count fresh cs := by
  induction cs generalizing count fresh with
  | nil => cases fresh <;> simp [Text.lineCountAux]
  | cons c cs ih =>
      rw [Text.lineCountAux]
      split
      · exact Nat.le_of_succ_le (ih (count + 1) true)
      · exact ih count false

/-- The line of any character of a text is one of its lines. -/
theorem lineCountAux_append_cons (count : Nat) (fresh : Bool) (front : List Char) (c : Char)
    (back : List Char) :
    count + front.count '\n' + 1 ≤ Text.lineCountAux count fresh (front ++ c :: back) := by
  induction front generalizing count fresh with
  | nil =>
      -- Either `c` ends a line or the text does not end with a fresh one.
      have hunended : ∀ cs, count + 1 ≤ Text.lineCountAux count false cs := by
        intro cs
        induction cs with
        | nil => simp [Text.lineCountAux]
        | cons d cs ih =>
            rw [Text.lineCountAux]
            split
            · exact lineCountAux_ge (count + 1) true cs
            · exact ih
      rw [List.nil_append, Text.lineCountAux]
      split
      · exact lineCountAux_ge (count + 1) true back
      · exact hunended back
  | cons d front ih =>
      rw [List.cons_append, Text.lineCountAux]
      by_cases hd : d = '\n'
      · have hrest := ih (count + 1) true
        rw [if_pos hd, hd, List.count_cons_self]
        omega
      · have hrest := ih count false
        rw [if_neg hd, List.count_cons_of_ne hd]
        exact hrest

structure Declaration.PointsInto (d : Declaration) (source : String) : Prop where
  start : ∃ front back, source.toList = front ++ back ∧
    Text.byteLength front = d.span.start.offset ∧
    Position.start.advanceAll front = .ok d.span.start
  stop : ∃ front back, source.toList = front ++ back ∧
    Text.byteLength front = d.span.stop.offset ∧
    Position.start.advanceAll front = .ok d.span.stop
  nonempty : d.span.start.offset < d.span.stop.offset
  inside : d.span.stop.offset ≤ source.utf8ByteSize
  slice : d.span.slice? source = some d.text
  line_le : d.line ≤ Text.lineCount source.toList
  first_line : ∃ piece, (source.toList.splitOn '\n')[d.line - 1]? = some piece ∧
    d.text.toList.takeWhile Scan.isNotLineFeed <+: piece.drop (d.column - 1)

theorem takeWhile_append_isPrefix (p : Char → Bool) (xs ys : List Char) :
    xs.takeWhile p <+: (xs ++ ys).takeWhile p := by
  rw [List.takeWhile_append]
  split
  · exact (List.takeWhile_prefix p).trans (List.prefix_append xs _)
  · exact List.prefix_refl _

/-- A text behind any front part of a source within the position limit, with the span of the
walks around it, points into the source. -/
theorem pointsInto_of_split {source : String} {front text back : List Char} (kind : Kind)
    (fit : PositionsFit source.toList) (whole : source.toList = front ++ text ++ back)
    (some_text : text ≠ []) :
    Declaration.PointsInto
      ⟨kind, String.ofList text,
        ⟨Position.start.walk front, Position.start.walk (front ++ text)⟩⟩ source := by
  have hstart := Position.walk_offset Position.start front
  have hstop := Position.walk_offset Position.start (front ++ text)
  have hzero : Position.start.offset = 0 := rfl
  have hpos : 0 < Text.byteLength text :=
    Nat.lt_of_lt_of_le (List.length_pos_iff.mpr some_text) (Text.length_le_byteLength text)
  have hsize := Text.byteLength_toList source
  rw [whole] at fit hsize
  have hfront : PositionsFit front := fit.of_append.of_append
  obtain ⟨c, cs, rfl⟩ := List.exists_cons_of_ne_nil some_text
  constructor
  · exact ⟨front, c :: cs ++ back, by rw [whole, List.append_assoc], by simp [hstart, hzero],
      Position.advanceAll_of_fits hfront⟩
  · exact ⟨front ++ c :: cs, back, whole, by simp only [hstop, hzero, Nat.zero_add],
      Position.advanceAll_of_fits fit.of_append⟩
  · simp only [hstart, hstop, Text.byteLength_append]
    omega
  · simp only [hstop]
    rw [Text.byteLength_append] at hsize
    omega
  · simp only [Span.slice?, hstart, hstop, hzero, Nat.zero_add, whole, Text.slice?_append,
      Option.map_some]
  · have hlines := lineCountAux_append_cons 0 true front c (cs ++ back)
    have hline := Position.walk_line Position.start front
    simp only [Declaration.line, hline, Text.lineCount, whole, List.append_assoc, List.cons_append]
    simp only [Position.start]
    omega
  · obtain ⟨piece, hpiece, hdrop⟩ := line_lookup front (c :: cs ++ back)
    refine ⟨piece, ?_, ?_⟩
    · rw [whole, List.append_assoc]
      exact hpiece
    · rw [String.toList_ofList]
      simp only [Declaration.column, hdrop]
      exact takeWhile_append_isPrefix _ _ _

namespace Scan

/-- Every declaration that a scan finds points into its source. -/
theorem declarations_pointInto (limits : Limits) (prefs : ScanPreferences) (source : String)
    (fit : PositionsFit source.toList) :
    ∃ o, scan limits prefs source = .ok o ∧ ∀ d ∈ o.declarations, d.PointsInto source := by
  refine ⟨outcome limits prefs source, scan_of_fits limits prefs fit, ?_⟩
  intro d hd
  obtain ⟨before, after, hparts, hspan, stands⟩ := mem_declarations hd
  have hwhole := segments_flatten source.toList
  rw [hparts, List.flatMap_append, List.flatMap_cons, ← List.append_assoc] at hwhole
  have hpoints := pointsInto_of_split d.kind fit hwhole.symm stands.text_ne_nil
  rw [Segment.text, String.ofList_toList, ← hspan] at hpoints
  exact hpoints

/-- Behind a character of two bytes and a tab, a declaration on two lines with a carriage return
at each end. -/
theorem declarations_pointInto_twoLines :
    PositionsFit "é\tint x\r\n= 1;\r\n".toList ∧
    ∃ o, scan Limits.development {} "é\tint x\r\n= 1;\r\n" = .ok o ∧
      o.declarations = [⟨.variable, "int x\r\n= 1;", ⟨⟨3, 1, 3⟩, ⟨14, 2, 5⟩⟩⟩] ∧
      Declaration.PointsInto ⟨.variable, "int x\r\n= 1;", ⟨⟨3, 1, 3⟩, ⟨14, 2, 5⟩⟩⟩
        "é\tint x\r\n= 1;\r\n" := by
  have fit : PositionsFit "é\tint x\r\n= 1;\r\n".toList :=
    Position.positionsFit_of_byteLength (by decide)
  have hfound : (outcome Limits.development {} "é\tint x\r\n= 1;\r\n").declarations =
      [⟨.variable, "int x\r\n= 1;", ⟨⟨3, 1, 3⟩, ⟨14, 2, 5⟩⟩⟩] := by cbv
  obtain ⟨o, scanned, points⟩ := declarations_pointInto Limits.development {} _ fit
  obtain rfl := scan_eq_ok scanned
  refine ⟨fit, _, scanned, hfound, points _ ?_⟩
  rw [hfound]
  exact List.mem_singleton_self _

end Scan

end CInventory
