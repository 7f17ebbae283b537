import CInventory.Proofs.Lexemes
import CInventory.Proofs.Positions
import CInventory.Scan.Outcome

/-!
# Runs follow the rules

The cursor finds its way by byte offsets and checked positions, the rules of `Segment.Stands`
speak of text alone. Wherever a segment stands ahead of the cursor, one move takes exactly that
segment, or fails because a position in it does not fit.
-/

namespace CInventory.Scan

namespace Cursor

open Segment

def Whole (c : Cursor) : Prop :=
  c.source.utf8ByteSize = c.position.offset + Text.byteLength c.rest

def taking (c : Cursor) (s : Segment) (rest : List Char) :
    Except Fault (Option Placed × Cursor) := do
  let after ← c.moveOver s.text rest
  return (some ⟨s, ⟨c.position, after.position⟩⟩, after)

/-! ## Moves -/

theorem moveOver_append (c : Cursor) (xs ys rest : List Char) :
    c.moveOver (xs ++ ys) rest = c.moveOver xs (ys ++ rest) >>= fun d => d.moveOver ys rest := by
  unfold moveOver
  rw [Position.advanceAll_append]
  cases c.position.advanceAll xs with
  | error e => rfl
  | ok q => rfl

theorem position_of_moveOver {c after : Cursor} {taken rest : List Char}
    (h : c.moveOver taken rest = .ok after) : after.position = c.position.walk taken := by
  obtain ⟨position, hposition, hafter⟩ := bind_eq_ok h
  cases hafter
  exact Position.advanceAll_eq_ok hposition

theorem moveOver_eq_ok {c after : Cursor} {taken rest : List Char}
    (h : c.moveOver taken rest = .ok after) :
    after.source = c.source ∧ after.rest = rest ∧
      after.position.offset = c.position.offset + Text.byteLength taken := by
  have hoffset := congrArg Position.offset (position_of_moveOver h)
  obtain ⟨position, _, hafter⟩ := bind_eq_ok h
  cases hafter
  exact ⟨rfl, rfl, hoffset.trans (Position.walk_offset c.position taken)⟩

theorem Whole.moveOver {c after : Cursor} {taken rest : List Char} (whole : c.Whole)
    (hc : c.rest = taken ++ rest) (h : c.moveOver taken rest = .ok after) : after.Whole := by
  obtain ⟨hsource, hrest, hoffset⟩ := moveOver_eq_ok h
  unfold Whole at whole ⊢
  rw [hsource, hrest, hoffset, whole, hc, Text.byteLength_append]
  omega

theorem spanFrom_of_moveOver {c after : Cursor} {taken rest : List Char}
    (h : c.moveOver taken rest = .ok after) :
    after.spanFrom c.position = .ok ⟨c.position, after.position⟩ := by
  obtain ⟨_, _, hoffset⟩ := moveOver_eq_ok h
  rw [spanFrom, Span.ofBounds, if_pos (by omega)]

theorem advanceTo_of_rest {c : Cursor} {taken rest : List Char} {offset : Nat}
    (hc : c.rest = taken ++ rest) (hoffset : offset = c.position.offset + Text.byteLength taken) :
    c.advanceTo offset = c.moveOver taken rest := by
  rw [advanceTo, hoffset, Nat.add_sub_cancel_left, hc, Text.takeBytes_append]

theorem upTo?_of_rest {c : Cursor} {taken rest : List Char} {offset : Nat}
    (hc : c.rest = taken ++ rest) (hoffset : offset = c.position.offset + Text.byteLength taken) :
    c.upTo? offset = some taken := by
  rw [upTo?, hoffset, Nat.add_sub_cancel_left, hc, Text.cut?_append]
  rfl

theorem advanceWhile_of_run {c : Cursor} {p : Char → Bool} {taken rest : List Char}
    (hc : c.rest = taken ++ rest) (run : MaximalRun p taken rest) :
    c.advanceWhile p = c.moveOver taken rest >>= fun after => .ok (taken, after) := by
  rw [advanceWhile, hc, run.takeWhile_eq, run.dropWhile_eq]
  rfl

theorem advanceWhile_none {c : Cursor} {p : Char → Bool}
    (h : ∀ x, c.rest.head? = some x → p x = false) : c.advanceWhile p = .ok ([], c) := by
  have run : MaximalRun p [] c.rest := ⟨by simp, h⟩
  rw [advanceWhile_of_run rfl run]
  rfl

/-! ## Comments and single characters -/

private theorem solid_of_slash {c : Cursor} {rest : List Char} (hc : c.rest = '/' :: rest) :
    ∀ x, c.rest.head? = some x → Text.isAsciiBlank x = false := by
  rw [hc]
  intro x hx
  cases hx
  decide

theorem next_blank {c : Cursor} {text rest : List Char} (hc : c.rest = text ++ rest)
    (some_text : text ≠ []) (run : MaximalRun Text.isAsciiBlank text rest) :
    c.next = c.taking (.blank text) rest := by
  have hnonempty : (!text.isEmpty) = true := by simpa using some_text
  rw [next, advanceWhile_of_run hc run, taking, Segment.text]
  cases c.moveOver text rest with
  | error e => rfl
  | ok after => exact if_pos hnonempty

theorem next_lineComment {c : Cursor} {cs text rest : List Char} (hc : c.rest = '/' :: cs)
    (h : lineComment? ('/' :: cs) = some (text, rest)) :
    c.next = c.taking (.lineComment text) rest := by
  rw [next, advanceWhile_none (solid_of_slash hc)]
  rw [← hc] at h
  simp only [h]
  rfl

theorem next_blockComment {c : Cursor} {cs : List Char} {comment : BlockComment}
    (hc : c.rest = '/' :: '*' :: cs) (h : blockComment? ('/' :: '*' :: cs) = some comment) :
    c.next = c.taking (.blockComment comment.text comment.closed) comment.rest := by
  have hline : lineComment? c.rest = none := by
    rw [hc]
    exact lineComment?_eq_none_iff.mpr (by simp)
  rw [next, advanceWhile_none (solid_of_slash hc)]
  rw [← hc] at h
  simp only [hline, h]
  rw [taking, Segment.text]
  cases hmove : c.moveOver comment.text comment.rest with
  | error e => rfl
  | ok after =>
      have hspan := spanFrom_of_moveOver hmove
      simp only [bind, Except.bind, List.isEmpty_nil, Bool.not_true, hspan]
      rfl

theorem next_of_uncommented {c : Cursor} {x : Char} {rest : List Char} (hc : c.rest = x :: rest)
    (solid : Text.isAsciiBlank x = false) (hline : lineComment? (x :: rest) = none)
    (hblock : blockComment? (x :: rest) = none) :
    c.next = if isLead x then c.classify else c.taking (.other x) rest := by
  have hsolid : ∀ y, c.rest.head? = some y → Text.isAsciiBlank y = false := by
    rw [hc]
    intro y hy
    cases hy
    exact solid
  rw [next, advanceWhile_none hsolid]
  simp only [hc, hline, hblock]
  rfl

/-! ## Captures -/

/-- Two moves in a row, with the span of both, take a segment. -/
theorem moves_taking {c after : Cursor} {word more rest : List Char} {s : Segment}
    (hmove : c.moveOver word (more ++ rest) = .ok after) (htext : s.text = word ++ more) :
    (after.moveOver more rest >>= fun last => last.spanFrom c.position >>= fun span =>
      .ok (some ⟨s, span⟩, last)) = c.taking s rest := by
  have hjoin : c.moveOver s.text rest = after.moveOver more rest := by
    rw [htext, moveOver_append, hmove]
    rfl
  rw [taking, hjoin]
  cases hlast : after.moveOver more rest with
  | error e => rfl
  | ok last =>
      have hspan := spanFrom_of_moveOver (hjoin.trans hlast)
      simp only [bind, Except.bind, hspan]
      rfl

theorem moves_emitting {c after : Cursor} {word more rest : List Char} (kind : Kind)
    (hmove : c.moveOver word (more ++ rest) = .ok after) (some_word : word ≠ []) :
    (after.moveOver more rest >>= fun last => last.emit c kind (word ++ more) >>= fun found =>
      .ok (found, last)) = c.taking (.declaration kind (word ++ more)) rest := by
  have hnonempty : (word ++ more).isEmpty = false := by simp [some_word]
  have htaking := moves_taking (s := .declaration kind (word ++ more)) hmove rfl
  rw [← htaking]
  cases after.moveOver more rest with
  | error e => rfl
  | ok last =>
      simp only [bind, Except.bind, emit, hnonempty]
      cases last.spanFrom c.position with
      | error e => rfl
      | ok span => rfl

theorem lineEnd_of_rest {c : Cursor} {skipped more : List Char} {offset : Nat}
    (hc : c.rest = skipped ++ more)
    (hoffset : offset = c.position.offset + Text.byteLength skipped) :
    c.lineEnd offset =
      c.position.offset + Text.byteLength (skipped ++ more.takeWhile isNotLineFeed) := by
  rw [lineEnd, hoffset, Nat.add_sub_cancel_left, hc, Text.cut?_append]
  simp only [Text.byteLength_append]
  omega

/-- The line end is looked up behind the word, the text is cut out from the word on. -/
theorem upTo?_lineEnd {c after : Cursor} {word skipped more : List Char} {offset : Nat}
    (hc : c.rest = word ++ (skipped ++ more))
    (hmove : c.moveOver word (skipped ++ more) = .ok after)
    (hoffset : offset = after.position.offset + Text.byteLength skipped) :
    c.upTo? (after.lineEnd offset) = some (word ++ skipped ++ more.takeWhile isNotLineFeed) := by
  obtain ⟨-, hrest, hmoved⟩ := moveOver_eq_ok hmove
  have hwhole : c.rest = word ++ skipped ++ more.takeWhile isNotLineFeed ++
      more.dropWhile isNotLineFeed := by
    rw [List.append_assoc _ (more.takeWhile isNotLineFeed), List.takeWhile_append_dropWhile, hc,
      List.append_assoc]
  apply upTo?_of_rest hwhole
  rw [lineEnd_of_rest hrest hoffset, hmoved, List.append_assoc word, Text.byteLength_append word]
  omega

/-- A capture to the end of a line, found by offsets, takes the text that ends the line. -/
theorem captureLine_taking {c after : Cursor} {word kept rest : List Char} (kind : Kind)
    (skipped : List Char) (hc : c.rest = word ++ (skipped ++ kept ++ rest))
    (hmove : c.moveOver word (skipped ++ kept ++ rest) = .ok after) (some_word : word ≠ [])
    (line : ∀ x ∈ kept, isNotLineFeed x = true) (ends : EndsLine (word ++ skipped ++ kept) rest) :
    after.captureLine c kind (after.position.offset + Text.byteLength skipped) =
      c.taking (.declaration kind (word ++ skipped ++ kept)) rest := by
  obtain ⟨-, hrest, hoffset⟩ := moveOver_eq_ok hmove
  have hupTo : c.upTo? (after.lineEnd (after.position.offset + Text.byteLength skipped)) =
      some (word ++ skipped ++ kept ++ rest.takeWhile isNotLineFeed) := by
    rw [List.append_assoc skipped] at hc hmove
    rw [upTo?_lineEnd hc hmove rfl, List.takeWhile_append_of_pos line, ← List.append_assoc]
  have htrim := trimEnd_append_blanks ends.solid ends.blanks
  have hadvance : after.advanceTo (c.position.offset + Text.byteLength (word ++ skipped ++ kept)) =
      after.moveOver (skipped ++ kept) rest := by
    apply advanceTo_of_rest hrest
    rw [hoffset, List.append_assoc, Text.byteLength_append]
    omega
  rw [captureLine, hupTo, Option.getD_some, htrim, hadvance, List.append_assoc word]
  exact moves_emitting kind hmove some_word

/-- The offset one behind a matching brace is where the group ends. -/
theorem upTo?_group {c after : Cursor} {word between group rest : List Char}
    (hc : c.rest = word ++ (between ++ (group ++ rest)))
    (hmove : c.moveOver word (between ++ (group ++ rest)) = .ok after) (some_group : group ≠ []) :
    c.upTo? (after.position.offset + (Text.byteLength between + Text.byteLength group - 1) + 1) =
      some (word ++ between ++ group) := by
  obtain ⟨-, -, hmoved⟩ := moveOver_eq_ok hmove
  have hpos := Text.length_le_byteLength group
  have hlength := List.length_pos_iff.mpr some_group
  have hwhole : c.rest = word ++ between ++ group ++ rest := by
    rw [hc]
    simp
  apply upTo?_of_rest hwhole
  rw [hmoved, List.append_assoc word, Text.byteLength_append word, Text.byteLength_append between]
  omega

private theorem matchingBrace?_of_groupBody {between body : List Char} (rest : List Char)
    (inside : GroupBody body) :
    matchingBrace? (between ++ '\x7b' :: (body ++ '\x7d' :: rest)) (Text.byteLength between) =
      some (Text.byteLength between + Text.byteLength ('\x7b' :: (body ++ ['\x7d'])) - 1) := by
  rw [matchingBrace?, Text.cut?_append]
  simp only [bind, Option.bind, closing?_of_groupBody rest inside]
  rfl

private theorem matchingBrace?_of_holdsOpen {between body : List Char} (held : HoldsOpen 1 body) :
    matchingBrace? (between ++ '\x7b' :: body) (Text.byteLength between) = none := by
  rw [matchingBrace?, Text.cut?_append]
  simp only [bind, Option.bind, closing?_eq_none_iff.mpr held]

theorem captureFunction_taking {c after : Cursor} {word between body rest : List Char}
    (hc : c.rest = word ++ (between ++ '\x7b' :: (body ++ '\x7d' :: rest)))
    (hmove : c.moveOver word (between ++ '\x7b' :: (body ++ '\x7d' :: rest)) = .ok after)
    (some_word : word ≠ []) (inside : GroupBody body) :
    after.captureFunction c word (after.position.offset + Text.byteLength between) =
      c.taking (.declaration .function (word ++ between ++ '\x7b' :: (body ++ ['\x7d']))) rest := by
  obtain ⟨-, hrest, -⟩ := moveOver_eq_ok hmove
  have hsplit : between ++ '\x7b' :: (body ++ '\x7d' :: rest) =
      between ++ ('\x7b' :: (body ++ ['\x7d']) ++ rest) := by simp
  -- The match is the offset of the closing brace itself, so the text ends one byte behind it.
  have hadvance : after.advanceTo (after.position.offset + (Text.byteLength between +
      Text.byteLength ('\x7b' :: (body ++ ['\x7d'])) - 1) + 1) =
        after.moveOver (between ++ '\x7b' :: (body ++ ['\x7d'])) rest := by
    have hpos := Text.length_le_byteLength ('\x7b' :: (body ++ ['\x7d']))
    rw [List.length_cons] at hpos
    apply advanceTo_of_rest (hrest.trans (hsplit.trans (List.append_assoc ..).symm))
    rw [Text.byteLength_append between]
    omega
  rw [hsplit] at hc hmove
  have hupTo := upTo?_group hc hmove (List.cons_ne_nil _ _)
  rw [captureFunction, Nat.add_sub_cancel_left, hrest, matchingBrace?_of_groupBody rest inside]
  simp only [hadvance, hupTo, List.append_assoc word]
  rw [← List.append_assoc between] at hmove
  exact moves_emitting .function hmove some_word

theorem advanceTo_end {c : Cursor} (whole : c.Whole) :
    c.advanceTo c.source.utf8ByteSize = c.moveOver c.rest [] :=
  advanceTo_of_rest (List.append_nil c.rest).symm whole

private theorem captureFunction_unclosed {c after : Cursor} {word between body : List Char}
    (whole : c.Whole) (hc : c.rest = word ++ (between ++ '\x7b' :: body))
    (hmove : c.moveOver word (between ++ '\x7b' :: body) = .ok after)
    (held : HoldsOpen 1 body) :
    after.captureFunction c word (after.position.offset + Text.byteLength between) =
      c.taking (.unclosed word (word ++ between ++ '\x7b' :: body)) [] := by
  obtain ⟨-, hrest, -⟩ := moveOver_eq_ok hmove
  have hend := advanceTo_end (whole.moveOver hc hmove)
  rw [← List.append_nil (between ++ '\x7b' :: body)] at hmove
  rw [captureFunction, hend, Nat.add_sub_cancel_left, hrest, matchingBrace?_of_holdsOpen held,
    List.append_assoc word, ← moves_taking hmove rfl]
  rfl

/-! ## Words -/

theorem lookahead_mark {c : Cursor} {lead between after : List Char} {mark : Char}
    (front : TypedFront lead between) (marked : isMark mark = true)
    (hc : c.rest = between ++ mark :: after) :
    c.lookahead = if mark = '\x7b' then .function (c.position.offset + Text.byteLength between)
      else .variable (c.position.offset + Text.byteLength between) := by
  have run := front.run (mark :: after) (marked_cons marked after)
  simp only [lookahead, hc, run.takeWhile_eq, run.dropWhile_eq]

private theorem lookahead_truncated {c : Cursor} {lead between : List Char}
    (front : TypedFront lead between) (hc : c.rest = between) : c.lookahead = .truncated := by
  simp only [lookahead, hc, front.dropWhile_eq_nil]

theorem next_of_lead {c : Cursor} {x : Char} {rest : List Char} (hc : c.rest = x :: rest)
    (lead : isLead x = true) : c.next = c.classify := by
  have hslash := ne_slash_of_isLead lead
  have hline : lineComment? (x :: rest) = none :=
    lineComment?_eq_none_iff.mpr fun h => hslash h.1
  have hblock : blockComment? (x :: rest) = none :=
    blockComment?_eq_none_iff.mpr fun h => hslash h.1
  rw [next_of_uncommented hc (isAsciiBlank_of_isLead lead) hline hblock, if_pos lead]

theorem next_word {c : Cursor} {x : Char} {tail more rest : List Char} {s : Segment}
    (hc : c.rest = x :: tail ++ (more ++ rest)) (lead : isLead x = true)
    (run : MaximalRun isWordChar tail (more ++ rest)) (htext : s.text = x :: tail ++ more)
    (declares : ∀ after, c.moveOver (x :: tail) (more ++ rest) = .ok after →
      after.declare c (x :: tail) = c.taking s rest) :
    c.next = c.taking s rest := by
  have hrun : MaximalRun isWordChar (x :: tail) (more ++ rest) := by
    refine ⟨?_, run.stop⟩
    intro y hy
    rcases List.mem_cons.mp hy with rfl | hy
    · exact isWordChar_of_isLead lead
    · exact run.inside y hy
  rw [next_of_lead hc lead, classify, advanceWhile_of_run hc hrun]
  cases hmove : c.moveOver (x :: tail) (more ++ rest) with
  | error e =>
      rw [taking, htext, moveOver_append, hmove]
      rfl
  | ok after => exact declares after hmove

theorem next_keyword {c : Cursor} {word more rest : List Char} {s : Segment}
    (key : String.ofList word = constantKeyword ∨ isBaseType (String.ofList word) = true)
    (hc : c.rest = word ++ (more ++ rest))
    (boundary : ∀ x, (more ++ rest).head? = some x → isWordChar x = false)
    (htext : s.text = word ++ more)
    (declares : ∀ after, c.moveOver word (more ++ rest) = .ok after →
      after.declare c word = c.taking s rest) :
    c.next = c.taking s rest := by
  obtain ⟨x, tail, rfl, hlead, inside⟩ := keyword_word key
  exact next_word hc hlead ⟨inside, boundary⟩ htext declares

private theorem declare_typed {c lead : Cursor} {word : List Char}
    (base : isBaseType (String.ofList word) = true) :
    c.declare lead word =
      match c.lookahead with
      | .variable mark => c.captureLine lead .variable mark
      | .function brace => c.captureFunction lead word brace
      | .truncated => c.advanceTo c.source.utf8ByteSize >>= fun after =>
          after.spanFrom lead.position >>= fun span =>
            .ok (some ⟨.truncated word (word ++ c.rest), span⟩, after) := by
  rw [declare, if_neg (ne_constantKeyword_of_isBaseType base), if_pos base]
  rfl

theorem next_typed {c : Cursor} {lead between after more rest : List Char} {s : Segment}
    (front : TypedFront lead between) (marked : ∀ x, after.head? = some x → isMark x = true)
    (hmore : more ++ rest = between ++ after) (hc : c.rest = lead ++ (more ++ rest))
    (htext : s.text = lead ++ more)
    (declares : ∀ d, c.moveOver lead (more ++ rest) = .ok d → d.declare c lead = c.taking s rest) :
    c.next = c.taking s rest := by
  refine next_keyword (.inr front.base) hc ?_ htext declares
  rw [hmore]
  exact head_append front.boundary fun x hx => isWordChar_of_isMark (marked x hx)

theorem next_constantLine {c : Cursor} {tail rest : List Char}
    (hc : c.rest = constantKeyword.toList ++ (tail ++ rest))
    (boundary : ∀ x, tail.head? = some x → isWordChar x = false)
    (line : ∀ x ∈ tail, isNotLineFeed x = true)
    (ends : EndsLine (constantKeyword.toList ++ tail) rest) :
    c.next = c.taking (.declaration .constant (constantKeyword.toList ++ tail)) rest := by
  have hkey : String.ofList constantKeyword.toList = constantKeyword := by simp
  refine next_keyword (.inl hkey) hc (head_append boundary (boundary_of_endsLine ends)) rfl ?_
  intro after hmove
  have hcapture := captureLine_taking .constant [] hc hmove (keyword_ne_nil (.inl hkey)) line ends
  rw [declare, if_pos hkey]
  exact hcapture

theorem next_variableLine {c : Cursor} {lead between tail rest : List Char} {mark : Char}
    (hc : c.rest = lead ++ (between ++ mark :: tail ++ rest)) (front : TypedFront lead between)
    (sort : mark = ';' ∨ mark = '=') (line : ∀ x ∈ tail, isNotLineFeed x = true)
    (ends : EndsLine (lead ++ between ++ mark :: tail) rest) :
    c.next = c.taking (.declaration .variable (lead ++ between ++ mark :: tail)) rest := by
  have hmark := isMark_of_sort sort
  have hkept : ∀ x ∈ mark :: tail, isNotLineFeed x = true := by
    intro x hx
    rcases List.mem_cons.mp hx with rfl | hx
    · rcases sort with rfl | rfl <;> decide
    · exact line x hx
  have hmore : between ++ mark :: tail ++ rest = between ++ mark :: (tail ++ rest) := by simp
  refine next_typed front (marked_cons hmark _) hmore hc (List.append_assoc ..) ?_
  intro after hmove
  have hrest : after.rest = between ++ mark :: (tail ++ rest) :=
    (rest_of_moveOver hmove).trans hmore
  rw [declare_typed front.base, lookahead_mark front hmark hrest,
    if_neg (ne_brace_of_sort sort)]
  exact captureLine_taking .variable between hc hmove (keyword_ne_nil (.inr front.base)) hkept ends

theorem next_functionBody {c : Cursor} {lead between body rest : List Char}
    (hc : c.rest = lead ++ (between ++ '\x7b' :: (body ++ '\x7d' :: rest)))
    (front : TypedFront lead between) (inside : GroupBody body) :
    c.next =
      c.taking (.declaration .function (lead ++ between ++ '\x7b' :: (body ++ ['\x7d']))) rest := by
  have hmore : between ++ '\x7b' :: (body ++ '\x7d' :: rest) =
      between ++ '\x7b' :: (body ++ ['\x7d']) ++ rest := by simp
  have hc' := hc
  rw [hmore] at hc'
  refine next_typed front (marked_cons (by decide) _) hmore.symm hc' (List.append_assoc ..) ?_
  intro after hmove
  rw [← hmore] at hmove
  rw [declare_typed front.base, lookahead_mark front (by decide) (rest_of_moveOver hmove)]
  exact captureFunction_taking hc hmove (keyword_ne_nil (.inr front.base)) inside

theorem next_unclosed {c : Cursor} {lead between body : List Char} (whole : c.Whole)
    (hc : c.rest = lead ++ (between ++ '\x7b' :: body)) (front : TypedFront lead between)
    (held : HoldsOpen 1 body) :
    c.next = c.taking (.unclosed lead (lead ++ between ++ '\x7b' :: body)) [] := by
  have hmore := List.append_nil (between ++ '\x7b' :: body)
  have hc' := hc
  rw [← hmore] at hc'
  refine next_typed front (marked_cons (by decide) _) hmore hc' (List.append_assoc ..) ?_
  intro after hmove
  rw [hmore] at hmove
  rw [declare_typed front.base, lookahead_mark front (by decide) (rest_of_moveOver hmove)]
  exact captureFunction_unclosed whole hc hmove held

theorem next_truncated {c : Cursor} {lead tail : List Char} (whole : c.Whole)
    (hc : c.rest = lead ++ (tail ++ [])) (front : TypedFront lead tail) :
    c.next = c.taking (.truncated lead (lead ++ tail)) [] := by
  refine next_typed front (by simp) rfl hc rfl ?_
  intro after hmove
  have hrest : after.rest = tail := (rest_of_moveOver hmove).trans (List.append_nil tail)
  have htaking := moves_taking (s := .truncated lead (lead ++ tail)) hmove rfl
  rw [declare_typed front.base, lookahead_truncated front hrest, ← htaking]
  simp only [advanceTo_end (whole.moveOver hc hmove), hrest]

theorem next_plainWord {c : Cursor} {x : Char} {tail rest : List Char}
    (hc : c.rest = x :: tail ++ rest) (lead : isLead x = true)
    (run : MaximalRun isWordChar tail rest) (plain : String.ofList (x :: tail) ≠ constantKeyword)
    (untyped : isBaseType (String.ofList (x :: tail)) = false) :
    c.next = c.taking (.word (x :: tail)) rest := by
  have htail : MaximalRun isWordChar tail ([] ++ rest) := run
  refine next_word hc lead htail (List.append_nil _).symm ?_
  intro after hmove
  rw [List.nil_append] at hmove
  rw [declare, if_neg plain, if_neg (ne_true_of_eq_false untyped), taking, Segment.text, hmove]
  rfl

theorem next_other {c : Cursor} {x : Char} {rest : List Char} (hc : c.rest = x :: rest)
    (solid : Text.isAsciiBlank x = false) (unled : isLead x = false)
    (uncommented : x = '/' → rest.head? ≠ some '/' ∧ rest.head? ≠ some '*') :
    c.next = c.taking (.other x) rest := by
  have hline : lineComment? (x :: rest) = none :=
    lineComment?_eq_none_iff.mpr fun h => (uncommented h.1).1 h.2
  have hblock : blockComment? (x :: rest) = none :=
    blockComment?_eq_none_iff.mpr fun h => (uncommented h.1).2 h.2
  rw [next_of_uncommented hc solid hline hblock, if_neg (ne_true_of_eq_false unled)]

/-- One move of the cursor takes the segment that stands ahead of it. -/
theorem next_of_stands {c : Cursor} {s : Segment} {rest : List Char} (whole : c.Whole)
    (stands : s.Stands rest) (hc : c.rest = s.text ++ rest) : c.next = c.taking s rest := by
  cases stands with
  | blank some_text run => exact next_blank hc some_text run
  | lineComment run => exact next_lineComment hc (lineComment?_of_run run)
  | closedComment first => exact next_blockComment hc (blockComment?_closed rest first)
  | openComment never =>
      rw [Segment.text, List.append_nil] at hc
      exact next_blockComment hc (blockComment?_open never)
  | constantLine boundary line ends =>
      rw [Segment.text, List.append_assoc] at hc
      exact next_constantLine hc boundary line ends
  | variableLine front sort line ends =>
      rw [List.append_assoc _ [_], List.singleton_append] at hc ends ⊢
      rw [Segment.text, List.append_assoc, List.append_assoc] at hc
      rw [← List.append_assoc _ _ rest] at hc
      exact next_variableLine hc front sort line ends
  | functionBody front inside =>
      refine next_functionBody ?_ front inside
      simpa [Segment.text] using hc
  | word lead run plain untyped => exact next_plainWord hc lead run plain untyped
  | other solid unled uncommented => exact next_other hc solid unled uncommented
  | truncated front =>
      rw [Segment.text, List.append_assoc] at hc
      exact next_truncated whole hc front
  | unclosed front held =>
      refine next_unclosed whole ?_ front held
      simpa [Segment.text] using hc

end Cursor

end CInventory.Scan
