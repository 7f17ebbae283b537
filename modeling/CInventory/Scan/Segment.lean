import CInventory.Declaration
import CInventory.Scan.Brace
import CInventory.Scan.Comment
import CInventory.Scan.Word
import CInventory.Text.Blank

/-!
# Segments

A source splits from left to right into segments: blanks, comments, declarations, words that
start none, single other characters, and at most one declaration at the end that is not
complete. `segments_flatten` says that the texts of the segments make up the source.
-/

namespace CInventory.Scan

inductive Segment where
  /-- A run of ASCII blanks. -/
  | blank (text : List Char)
  | lineComment (text : List Char)
  /-- A block comment; `closed` is false when it runs to the end of the source. -/
  | blockComment (text : List Char) (closed : Bool)
  | declaration (kind : Kind) (text : List Char)
  /-- A word that starts no declaration. -/
  | word (text : List Char)
  | other (c : Char)
  /-- A base type with no mark behind it, to the end of the source. -/
  | truncated (lead text : List Char)
  /-- A base type whose body is never closed, to the end of the source. -/
  | unclosed (lead text : List Char)
deriving DecidableEq

namespace Segment

def text : Segment → List Char
  | .blank text => text
  | .lineComment text => text
  | .blockComment text _ => text
  | .declaration _ text => text
  | .word text => text
  | .other c => [c]
  | .truncated _ text => text
  | .unclosed _ text => text

/-- A declaration that starts with `front` and runs to the end of the line, without the blanks
at its end. -/
def captureLine (kind : Kind) (front rest : List Char) : Segment × List Char :=
  let line := front ++ rest.takeWhile isNotLineFeed
  let text := Text.trimEnd line
  (.declaration kind text, line.drop text.length ++ rest.dropWhile isNotLineFeed)

/-- What a base type declares is decided by the first mark behind it: a body makes a function,
any other mark a variable. -/
def captureTyped (lead rest : List Char) : Segment × List Char :=
  let between := rest.takeWhile (!isMark ·)
  match rest.dropWhile (!isMark ·) with
  | [] => (.truncated lead (lead ++ rest), [])
  | mark :: after =>
    if mark = '\x7b' then
      match closing? (mark :: after) with
      | some (body, rest') => (.declaration .function (lead ++ between ++ body), rest')
      | none => (.unclosed lead (lead ++ rest), [])
    else captureLine .variable (lead ++ between ++ [mark]) after

/-- The segment that starts with the word `lead`. -/
def captureWord (lead rest : List Char) : Segment × List Char :=
  if String.ofList lead = constantKeyword then captureLine .constant lead rest
  else if isBaseType (String.ofList lead) then captureTyped lead rest
  else (.word lead, rest)

/-- The first segment of a source that starts with `c`, and the rest. -/
def first (c : Char) (cs : List Char) : Segment × List Char :=
  if Text.isAsciiBlank c then
    (.blank (c :: cs.takeWhile Text.isAsciiBlank), cs.dropWhile Text.isAsciiBlank)
  else
    match lineComment? (c :: cs) with
    | some (text, rest) => (.lineComment text, rest)
    | none =>
      match blockComment? (c :: cs) with
      | some comment => (.blockComment comment.text comment.closed, comment.rest)
      | none =>
        if isLead c then captureWord (c :: cs.takeWhile isWordChar) (cs.dropWhile isWordChar)
        else (.other c, cs)

/-! ## Nothing is lost, and every segment takes something -/

theorem trimEnd_append_drop (cs : List Char) :
    Text.trimEnd cs ++ cs.drop (Text.trimEnd cs).length = cs := by
  have whole := Text.trimEnd_append_cut cs
  have cut := congrArg (List.drop (Text.trimEnd cs).length) whole
  rw [List.drop_left] at cut
  rw [← cut, whole]

theorem captureLine_append (kind : Kind) (front rest : List Char) :
    (captureLine kind front rest).1.text ++ (captureLine kind front rest).2 = front ++ rest := by
  simp only [captureLine, text]
  rw [← List.append_assoc, trimEnd_append_drop, List.append_assoc,
    List.takeWhile_append_dropWhile]

theorem captureTyped_append (lead rest : List Char) :
    (captureTyped lead rest).1.text ++ (captureTyped lead rest).2 = lead ++ rest := by
  have split := List.takeWhile_append_dropWhile (p := (!isMark ·)) (l := rest)
  unfold captureTyped
  split
  · simp [text]
  · next mark after h =>
      rw [h] at split
      split
      · split
        · next body rest' hc =>
            simp only [text, List.append_assoc, closing?_append hc]
            rw [split]
        · simp [text]
      · rw [captureLine_append]
        simp [split]

theorem captureWord_append (lead rest : List Char) :
    (captureWord lead rest).1.text ++ (captureWord lead rest).2 = lead ++ rest := by
  unfold captureWord
  split
  · exact captureLine_append .constant lead rest
  · split
    · exact captureTyped_append lead rest
    · simp [text]

theorem first_append (c : Char) (cs : List Char) :
    (first c cs).1.text ++ (first c cs).2 = c :: cs := by
  unfold first
  split
  · simp [text]
  · split
    · next h => exact lineComment?_append h
    · split
      · next h => exact blockComment?_append h
      · split
        · rw [captureWord_append]; simp
        · simp [text]

theorem trimEnd_ne_nil {c : Char} (cs : List Char) (h : Text.isBlank c = false) :
    Text.trimEnd (c :: cs) ≠ [] := by
  intro hnil
  have whole := Text.trimEnd_append_cut (c :: cs)
  rw [hnil, List.nil_append] at whole
  have member : c ∈ ((c :: cs).reverse.takeWhile Text.isBlank).reverse := by
    rw [whole]
    exact List.mem_cons_self
  have blank := List.all_eq_true.mp List.all_takeWhile c (List.mem_reverse.mp member)
  rw [h] at blank
  cases blank

theorem isBlank_of_isLead {c : Char} (h : isLead c = true) : Text.isBlank c = false := by
  have lt : c.toNat < 0x7f ∧ 0x20 < c.toNat := by
    simp only [isLead, isAsciiLetter, Bool.or_eq_true, Bool.and_eq_true, decide_eq_true_eq] at h
    rcases h with (h | h) | h
    · have h1 : ('a' : Char).toNat ≤ c.toNat := h.1
      have h2 : c.toNat ≤ ('z' : Char).toNat := h.2
      simp at h1 h2
      omega
    · have h1 : ('A' : Char).toNat ≤ c.toNat := h.1
      have h2 : c.toNat ≤ ('Z' : Char).toNat := h.2
      simp at h1 h2
      omega
    · subst h
      decide
  simp [Text.isBlank, Text.inRanges, Text.blankRanges]
  omega

theorem captureLine_text_ne_nil (kind : Kind) {c : Char} (front rest : List Char)
    (h : Text.isBlank c = false) : (captureLine kind (c :: front) rest).1.text ≠ [] :=
  trimEnd_ne_nil _ h

theorem captureTyped_text_ne_nil {c : Char} (lead rest : List Char)
    (h : Text.isBlank c = false) : (captureTyped (c :: lead) rest).1.text ≠ [] := by
  unfold captureTyped
  split
  · simp [text]
  · split
    · split <;> simp [text]
    · exact captureLine_text_ne_nil .variable _ _ h

theorem first_text_ne_nil (c : Char) (cs : List Char) : (first c cs).1.text ≠ [] := by
  unfold first
  split
  · simp [text]
  · split
    · next h => exact lineComment?_ne_nil h
    · split
      · next h => exact blockComment?_ne_nil h
      · split
        · next hl =>
            unfold captureWord
            split
            · exact captureLine_text_ne_nil .constant _ _ (isBlank_of_isLead hl)
            · split
              · exact captureTyped_text_ne_nil _ _ (isBlank_of_isLead hl)
              · simp [text]
        · simp [text]

theorem first_rest_length (c : Char) (cs : List Char) :
    (first c cs).2.length < (c :: cs).length := by
  have whole := congrArg List.length (first_append c cs)
  have some_text := List.length_pos_iff.mpr (first_text_ne_nil c cs)
  rw [List.length_append] at whole
  omega

end Segment

/-! ## The whole source -/

/-- The segments of a source behind those of `done`, which are listed last first. -/
def segmentsAux (done : List Segment) : List Char → List Segment
  | [] => done.reverse
  | c :: cs =>
    let step := Segment.first c cs
    segmentsAux (step.1 :: done) step.2
termination_by cs => cs.length
decreasing_by exact Segment.first_rest_length c cs

def segments (cs : List Char) : List Segment := segmentsAux [] cs

theorem segmentsAux_eq (done : List Segment) (cs : List Char) :
    segmentsAux done cs = done.reverse ++ segments cs := by
  induction h : cs.length using Nat.strongRecOn generalizing done cs with
  | ind n ih =>
      subst h
      cases cs with
      | nil => simp [segments, segmentsAux]
      | cons c cs =>
          have short := Segment.first_rest_length c cs
          rw [segments, segmentsAux, segmentsAux]
          rw [ih _ short _ _ rfl, ih _ short [(Segment.first c cs).1] _ rfl]
          simp

@[simp] theorem segments_nil : segments [] = [] := by simp [segments, segmentsAux]

theorem segments_cons (c : Char) (cs : List Char) :
    segments (c :: cs) = (Segment.first c cs).1 :: segments (Segment.first c cs).2 := by
  rw [segments, segmentsAux, segmentsAux_eq]
  rfl

/-- The segments of a source make up the source. -/
theorem segments_flatten (cs : List Char) : (segments cs).flatMap Segment.text = cs := by
  induction h : cs.length using Nat.strongRecOn generalizing cs with
  | ind n ih =>
      subst h
      cases cs with
      | nil => simp
      | cons c cs =>
          rw [segments_cons, List.flatMap_cons, ih _ (Segment.first_rest_length c cs) _ rfl]
          exact Segment.first_append c cs

end CInventory.Scan
