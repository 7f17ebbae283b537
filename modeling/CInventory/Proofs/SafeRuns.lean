import Mathlib
import CInventory.Limits
import CInventory.Proofs.Catalogers

/-!
# Runs that nothing stops

Limits that a build accepts bound the sources that are read. On a source within them no position
leaves its width, so a run ends at the end of its source. `Cursor.Safe` lists what a step takes
for granted: offsets that lie on boundaries of the source, texts that can be cut out of it, and
captures that are not empty. It holds of every cursor that a run reaches.
-/

namespace CInventory.Scan

namespace Cursor

/-- The cursor stands in `source` behind `passed`, at the position counted over it. -/
structure InPlace (c : Cursor) (source : String) (passed : List Char) : Prop where
  same : c.source = source
  text : source.toList = passed ++ c.rest
  position : c.position = Position.start.walk passed

namespace InPlace

variable {c after : Cursor} {source : String} {passed taken rest : List Char}

theorem ofSource (source : String) : (Cursor.ofSource source).InPlace source [] :=
  ⟨rfl, rfl, rfl⟩

theorem offset (place : c.InPlace source passed) :
    c.position.offset = Text.byteLength passed := by
  rw [place.position, Position.walk_offset]
  simp [Position.start]

theorem size (place : c.InPlace source passed) :
    source.utf8ByteSize = c.position.offset + Text.byteLength c.rest := by
  rw [← Text.byteLength_toList, place.text, Text.byteLength_append, place.offset]

theorem whole (place : c.InPlace source passed) : c.Whole := by
  unfold Whole
  rw [place.same, place.size]

theorem fits (place : c.InPlace source passed) (fit : PositionsFit source.toList) :
    c.position.fits = true := by
  rw [place.position]
  exact fit passed ⟨c.rest, place.text.symm⟩

theorem moved (place : c.InPlace source passed) (hc : c.rest = taken ++ rest)
    (hmove : c.moveOver taken rest = .ok after) : after.InPlace source (passed ++ taken) := by
  obtain ⟨hsource, hrest, -⟩ := moveOver_eq_ok hmove
  refine ⟨hsource.trans place.same, ?_, ?_⟩
  · rw [hrest, place.text, hc, List.append_assoc]
  · rw [position_of_moveOver hmove, place.position, Position.walk_append]

theorem exists_moveOver (place : c.InPlace source passed) (fit : PositionsFit source.toList)
    (hc : c.rest = taken ++ rest) : ∃ after, c.moveOver taken rest = .ok after := by
  have hfits : ∀ front, front <+: taken → (c.position.walk front).fits = true := by
    rintro front ⟨back, rfl⟩
    rw [place.position, ← Position.walk_append]
    exact fit (passed ++ front) ⟨back ++ rest, by rw [place.text, hc]; simp⟩
  refine ⟨{ c with rest, position := c.position.walk taken }, ?_⟩
  rw [moveOver, Position.advanceAll_of_fits hfits]
  rfl

/-- The text between two places is what the source has between their offsets. -/
theorem slice? (place : c.InPlace source passed) (later : after.InPlace source (passed ++ taken)) :
    Text.slice? source.toList c.position.offset after.position.offset = some taken := by
  rw [place.offset, later.offset, later.text, Text.slice?_append]

end InPlace

/-! ## What a step takes for granted -/

/-- A capture from `lead` to the end of the line of `offset` has a text: all offsets lie in the
source, and something is left when the blanks at the end are cut off. -/
structure LineSafe (source : String) (lead c : Cursor) (offset : Nat) : Prop where
  inside : offset ≤ source.utf8ByteSize
  boundary : (Text.cut? c.rest (offset - c.position.offset)).isSome = true
  lineEnd_le : c.lineEnd offset ≤ source.utf8ByteSize
  text : ∃ line, lead.upTo? (c.lineEnd offset) = some line ∧ Text.trimEnd line ≠ [] ∧
    lead.position.offset + Text.byteLength (Text.trimEnd line) ≤ source.utf8ByteSize

/-- A capture from `lead` through the brace that matches the one at `brace` has a text. -/
structure BodySafe (source : String) (lead c : Cursor) (brace : Nat) : Prop where
  inside : brace < source.utf8ByteSize
  boundary : (Text.cut? c.rest (brace - c.position.offset)).isSome = true
  text : ∀ close, matchingBrace? c.rest (brace - c.position.offset) = some close →
    c.position.offset + close + 1 ≤ source.utf8ByteSize ∧
    ∃ text, lead.upTo? (c.position.offset + close + 1) = some text ∧ text ≠ []

/-- Nothing that a step from this cursor relies on is missing. -/
structure Safe (source : String) (c : Cursor) : Prop where
  fits : c.position.fits = true
  inside : c.position.offset ≤ source.utf8ByteSize
  /-- The text ahead is what the source has from the offset on. -/
  ahead : ∃ passed, Text.cut? source.toList c.position.offset = some (passed, c.rest)
  /-- A run can be passed, and its text is what the source has between the two offsets. -/
  runs : ∀ p : Char → Bool, ∃ taken after, c.advanceWhile p = .ok (taken, after) ∧
    Text.slice? source.toList c.position.offset after.position.offset = some taken
  /-- The opener of a block comment ends on a boundary, the comment ends in the source. -/
  comments : ∀ comment, blockComment? c.rest = some comment →
    (∃ body, Text.cut? c.rest 2 = some (['/', '*'], body)) ∧
    c.position.offset + Text.byteLength comment.text ≤ source.utf8ByteSize
  /-- Whatever the word at the cursor declares can be captured. -/
  captures : ∀ x tail, c.rest = x :: tail → isLead x = true →
    ∀ word after, c.advanceWhile isWordChar = .ok (word, after) →
      LineSafe source c after after.position.offset ∧
      (∀ mark, after.lookahead = .variable mark → LineSafe source c after mark) ∧
      (∀ brace, after.lookahead = .function brace → BodySafe source c after brace)
  /-- A step places a segment and moves on. -/
  steps : c.rest ≠ [] → ∃ p after, c.next = .ok (some p, after) ∧
    p.span = ⟨c.position, after.position⟩ ∧ c.position.offset < after.position.offset

section

variable {c after : Cursor} {source : String} {passed : List Char}

theorem lineSafe_of_rest {word more : List Char} {x : Char} {offset : Nat}
    (place : c.InPlace source passed) (skipped : List Char)
    (hc : c.rest = x :: word ++ (skipped ++ more))
    (lead : isLead x = true) (hmove : c.moveOver (x :: word) (skipped ++ more) = .ok after)
    (hoffset : offset = after.position.offset + Text.byteLength skipped) :
    LineSafe source c after offset := by
  have later := place.moved hc hmove
  have hrest : after.rest = skipped ++ more := rest_of_moveOver hmove
  have hsize := later.size
  have hline := upTo?_lineEnd hc hmove hoffset
  have hend := lineEnd_of_rest hrest hoffset
  -- The line is no longer than its source, and trimming makes it no longer.
  have hmore := congrArg Text.byteLength
    (List.takeWhile_append_dropWhile (p := isNotLineFeed) (l := more))
  have htrim := congrArg Text.byteLength
    (Text.trimEnd_append_cut (x :: word ++ skipped ++ more.takeWhile isNotLineFeed))
  have hmoved := (moveOver_eq_ok hmove).2.2
  rw [hrest] at hsize
  simp only [Text.byteLength_append] at hsize hend hmore htrim
  refine ⟨by omega, ?_, by omega, _, hline, ?_, by omega⟩
  · rw [hoffset, Nat.add_sub_cancel_left, hrest, Text.cut?_append]
    rfl
  · exact Segment.trimEnd_ne_nil _ (Segment.isBlank_of_isLead lead)

private theorem rest_of_lookahead_variable {mark : Nat} (h : c.lookahead = .variable mark) :
    mark = c.position.offset + Text.byteLength (c.rest.takeWhile (!isMark ·)) := by
  unfold lookahead at h
  dsimp only at h
  split at h
  · cases h
  · split at h
    · cases h
    · cases h
      rfl

private theorem rest_of_lookahead_function {brace : Nat} (h : c.lookahead = .function brace) :
    ∃ between tail, c.rest = between ++ '\x7b' :: tail ∧
      brace = c.position.offset + Text.byteLength between := by
  unfold lookahead at h
  dsimp only at h
  split at h
  · cases h
  · next mark tail hdrop =>
      split at h
      · next hmark =>
          cases h
          refine ⟨_, tail, ?_, rfl⟩
          rw [← hmark, ← hdrop, List.takeWhile_append_dropWhile]
      · cases h

theorem matchingBrace?_eq_some {between tail : List Char} {close : Nat}
    (h : matchingBrace? (between ++ '\x7b' :: tail) (Text.byteLength between) = some close) :
    ∃ group rest, '\x7b' :: tail = group ++ rest ∧ group ≠ [] ∧
      close = Text.byteLength between + Text.byteLength group - 1 := by
  rw [matchingBrace?, Text.cut?_append] at h
  simp only [bind, Option.bind] at h
  split at h
  · cases h
  · next found hfound =>
      obtain ⟨group, rest⟩ := found
      cases h
      obtain ⟨body, -, hgroup, -⟩ := closing?_some hfound
      exact ⟨group, rest, (closing?_append hfound).symm, by simp [hgroup], rfl⟩

theorem bodySafe_of_rest {word between tail : List Char} {brace : Nat}
    (place : c.InPlace source passed) (hc : c.rest = word ++ (between ++ '\x7b' :: tail))
    (hmove : c.moveOver word (between ++ '\x7b' :: tail) = .ok after)
    (hbrace : brace = after.position.offset + Text.byteLength between) :
    BodySafe source c after brace := by
  have later := place.moved hc hmove
  have hrest : after.rest = between ++ '\x7b' :: tail := rest_of_moveOver hmove
  have hsize := later.size
  rw [hrest, Text.byteLength_append] at hsize
  have hpos := Text.length_le_byteLength ('\x7b' :: tail)
  rw [List.length_cons] at hpos
  refine ⟨by omega, ?_, ?_⟩
  · rw [hbrace, Nat.add_sub_cancel_left, hrest, Text.cut?_append]
    rfl
  · intro close hclose
    rw [hbrace, Nat.add_sub_cancel_left, hrest] at hclose
    obtain ⟨group, rest, hsplit, some_group, rfl⟩ := matchingBrace?_eq_some hclose
    rw [hsplit] at hc hmove hsize
    have hgroup := Text.length_le_byteLength group
    have hlength := List.length_pos_iff.mpr some_group
    rw [Text.byteLength_append] at hsize
    refine ⟨by omega, _, upTo?_group hc hmove some_group, ?_⟩
    simp [some_group]

private theorem cut?_opener {cs : List Char} {comment : BlockComment}
    (h : blockComment? cs = some comment) :
    ∃ body, Text.cut? cs 2 = some (['/', '*'], body) := by
  unfold blockComment? at h
  split at h
  · next body => exact ⟨body, Text.cut?_append ['/', '*'] body⟩
  · cases h

/-- One step takes the segment that stands ahead, whole, and stays in place. -/
theorem exists_next (place : c.InPlace source passed) (fit : PositionsFit source.toList)
    (more : c.rest ≠ []) :
    ∃ p after, c.next = .ok (some p, after) ∧ p.span = ⟨c.position, after.position⟩ ∧
      p.segment.text ≠ [] ∧ after.InPlace source (passed ++ p.segment.text) := by
  obtain ⟨x, tail, hc⟩ := List.exists_cons_of_ne_nil more
  have stands := Segment.first_stands x tail
  have hsplit : c.rest = (Segment.first x tail).1.text ++ (Segment.first x tail).2 := by
    rw [hc, Segment.first_append]
  obtain ⟨after, hmove⟩ := place.exists_moveOver fit hsplit
  refine ⟨⟨(Segment.first x tail).1, ⟨c.position, after.position⟩⟩, after, ?_, rfl,
    stands.text_ne_nil, place.moved hsplit hmove⟩
  rw [next_of_stands place.whole stands hsplit, taking, hmove]
  rfl

theorem InPlace.safe (place : c.InPlace source passed) (fit : PositionsFit source.toList) :
    Safe source c := by
  have hadvance : ∀ p : Char → Bool, ∃ after, c.advanceWhile p = .ok (c.rest.takeWhile p, after) ∧
      c.moveOver (c.rest.takeWhile p) (c.rest.dropWhile p) = .ok after := by
    intro p
    have hsplit := (List.takeWhile_append_dropWhile (p := p) (l := c.rest)).symm
    obtain ⟨after, hmove⟩ := place.exists_moveOver fit hsplit
    refine ⟨after, ?_, hmove⟩
    rw [advanceWhile, hmove]
    rfl
  constructor
  · exact place.fits fit
  · have hsize := place.size
    omega
  · exact ⟨passed, by rw [place.offset, place.text, Text.cut?_append]⟩
  · intro p
    obtain ⟨after, hrun, hmove⟩ := hadvance p
    have later := place.moved List.takeWhile_append_dropWhile.symm hmove
    exact ⟨_, after, hrun, place.slice? later⟩
  · intro comment hcomment
    have hsize := place.size
    rw [← blockComment?_append hcomment, Text.byteLength_append] at hsize
    exact ⟨cut?_opener hcomment, by omega⟩
  · intro x tail hc lead word after hrun
    obtain ⟨moved, hmoved, hmove⟩ := hadvance isWordChar
    obtain ⟨rfl, rfl⟩ : word = c.rest.takeWhile isWordChar ∧ after = moved := by
      rw [hmoved] at hrun
      cases hrun
      exact ⟨rfl, rfl⟩
    have hword : c.rest.takeWhile isWordChar = x :: tail.takeWhile isWordChar := by
      rw [hc, List.takeWhile_cons_of_pos (isWordChar_of_isLead lead)]
    have hsplit := (List.takeWhile_append_dropWhile (p := isWordChar) (l := c.rest)).symm
    have hrest := rest_of_moveOver hmove
    rw [hword, ← hrest] at hsplit hmove
    refine ⟨?_, ?_, ?_⟩
    · exact lineSafe_of_rest place [] hsplit lead hmove rfl
    · intro mark hmark
      have hmarked := (List.takeWhile_append_dropWhile (p := (!isMark ·)) (l := after.rest)).symm
      have hsplit' := hsplit
      have hmove' := hmove
      rw [hmarked] at hsplit' hmove'
      exact lineSafe_of_rest place _ hsplit' lead hmove' (rest_of_lookahead_variable hmark)
    · intro brace hbrace
      obtain ⟨between, body, hbody, hoffset⟩ := rest_of_lookahead_function hbrace
      rw [hbody] at hsplit hmove
      exact bodySafe_of_rest place hsplit hmove hoffset
  · intro more
    obtain ⟨p, after, hnext, hspan, some_text, later⟩ := exists_next place fit more
    have hpos := List.length_pos_iff.mpr some_text
    have hlength := Text.length_le_byteLength p.segment.text
    refine ⟨p, after, hnext, hspan, ?_⟩
    rw [place.offset, later.offset, Text.byteLength_append]
    omega

end

end Cursor

inductive Reached (source : String) : Cursor → Prop where
  | start : Reached source (.ofSource source)
  | next {c after : Cursor} {found : Option Placed} (reached : Reached source c)
      (more : c.rest ≠ []) (step : c.next = .ok (found, after)) : Reached source after

theorem Reached.inPlace {source : String} {c : Cursor} (reached : Reached source c)
    (fit : PositionsFit source.toList) : ∃ passed, c.InPlace source passed := by
  induction reached with
  | start => exact ⟨[], .ofSource source⟩
  | next reached more step ih =>
      obtain ⟨passed, place⟩ := ih
      obtain ⟨p, after, hnext, -, -, later⟩ := Cursor.exists_next place fit more
      rw [hnext] at step
      cases step
      exact ⟨_, later⟩

/-- Accepted limits keep the positions of every source that may be read within their widths. -/
theorem positionsFit_of_validate {limits : Limits} {profile : String} {source : String}
    (valid : limits.validate profile = .ok ())
    (admitted : source.utf8ByteSize ≤ limits.maxFileSize) : PositionsFit source.toList := by
  have hbound := ((limits.validate_eq_ok_iff profile).mp valid).1
  apply Position.positionsFit_of_byteLength
  rw [Text.byteLength_toList]
  simp only [Limits.absoluteMaxFileSize, Position.countBound] at *
  omega

/-- Under accepted limits, a scan of a source that may be read returns, whatever the preferences,
the cataloger and the inventory it fills. Its run ends at the end of the source, every span in it
goes forward, every place in the source can be counted up to and cut at, and every cursor that it
reaches is safe. -/
theorem scan_safe (limits : Limits) (profile : String) (prefs : ScanPreferences) (source : String)
    (inv : Inventory) (valid : limits.validate profile = .ok ())
    (admitted : source.utf8ByteSize ≤ limits.maxFileSize) :
    ∃ placed last o,
      (Cursor.ofSource source).runFrom [] = .ok (placed, last) ∧
      last.rest = [] ∧ last.position.offset = source.utf8ByteSize ∧
      scan limits prefs source = .ok o ∧
      (∀ k : Cataloger, ∃ left, k.scan limits source inv = .ok (o.metrics, left) ∧
        left.inventory = inv.addAll o.declarations ∧
        left.inventory.size = inv.size + o.metrics.declarations) ∧
      (∀ p ∈ placed, p.span.start.offset < p.span.stop.offset) ∧
      source.utf8ByteSize < Position.offsetBound ∧
      (∀ passed rest, source.toList = passed ++ rest →
        (Position.start.walk passed).fits = true ∧
        Text.cut? source.toList (Position.start.walk passed).offset = some (passed, rest)) ∧
      ∀ c, Reached source c → Cursor.Safe source c := by
  have fit := positionsFit_of_validate valid admitted
  have hrun := run_ofSource source
  rw [Position.advanceAll_of_fits fit] at hrun
  have hend : (Position.start.walk source.toList).offset = source.utf8ByteSize := by
    rw [Position.walk_offset, Text.byteLength_toList]
    simp [Position.start]
  refine ⟨_, _, _, hrun, rfl, hend, scan_of_fits limits prefs fit, ?_, ?_, ?_, ?_, ?_⟩
  · intro k
    obtain ⟨left, hscan, ends⟩ := k.scan_ends limits inv fit
    refine ⟨left, hscan, ends.inventory, ?_⟩
    rw [ends.inventory, Inventory.size_addAll, length_declarations]
    rfl
  · intro p hp
    obtain ⟨before, after, hparts, hspan⟩ := mem_place hp
    have split := splits_segments source.toList
    rw [hparts] at split
    have hpos := List.length_pos_iff.mpr split.stands.text_ne_nil
    have hlength := Text.length_le_byteLength p.segment.text
    simp only [hspan, Position.walk_offset, Text.byteLength_append]
    omega
  · rw [← hend]
    exact (Position.fits_iff.mp (fit _ (List.prefix_refl _))).1
  · intro passed rest hsplit
    have place : (Cursor.mk source rest (Position.start.walk passed)).InPlace source passed :=
      ⟨rfl, hsplit, rfl⟩
    refine ⟨place.fits fit, ?_⟩
    rw [place.offset, hsplit, Text.cut?_append]
  · intro c reached
    obtain ⟨passed, place⟩ := reached.inPlace fit
    exact place.safe fit

/-- A capture that ends in a character of two bytes, an open comment behind it, and a store that
is not empty. -/
theorem scan_safe_openComment :
    Limits.development.validate "production" = .ok () ∧
    "const é\u00a0\n/*".utf8ByteSize ≤ Limits.development.maxFileSize ∧
    ∃ o, scan Limits.development {} "const é\u00a0\n/*" = .ok o ∧
      (∃ left, Cataloger.scan {} Limits.development "const é\u00a0\n/*"
          (Inventory.empty.add ⟨.constant, "const", ⟨.start, .start⟩⟩) = .ok (o.metrics, left) ∧
        left.inventory.size = 1 + o.metrics.declarations) ∧
      o.metrics.declarations = 1 ∧
      ∀ c, Reached "const é\u00a0\n/*" c → Cursor.Safe "const é\u00a0\n/*" c := by
  have valid : Limits.development.validate "production" = .ok () := by decide
  have admitted : "const é\u00a0\n/*".utf8ByteSize ≤ Limits.development.maxFileSize := by decide
  obtain ⟨_, _, o, -, -, -, scanned, hcatalogers, -, -, -, safe⟩ :=
    scan_safe Limits.development "production" {} "const é\u00a0\n/*"
      (Inventory.empty.add ⟨.constant, "const", ⟨.start, .start⟩⟩) valid admitted
  obtain ⟨left, hscan, -, hsize⟩ := hcatalogers {}
  obtain rfl := scan_eq_ok scanned
  exact ⟨valid, admitted, _, scanned, ⟨left, hscan, hsize⟩, by cbv, safe⟩

end CInventory.Scan
