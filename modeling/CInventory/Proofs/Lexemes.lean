import CInventory.Proofs.Enclosure
import CInventory.Proofs.Runs

/-!
# What may stand where

`Segment.Stands s rest` gives the rule that a segment obeys when `rest` follows it to the end of
the source. The rules mention no search: they say what a segment is made of and what may come
next. At every place of a source exactly one segment stands, the one that the scan takes.
-/

namespace CInventory.Scan

/-- A base type and what stands between it and the first mark. -/
structure TypedFront (lead between : List Char) : Prop where
  base : isBaseType (String.ofList lead) = true
  boundary : ∀ c, between.head? = some c → isWordChar c = false
  unmarked : ∀ c ∈ between, isMark c = false

theorem TypedFront.run {lead between : List Char} (front : TypedFront lead between)
    (after : List Char) (marked : ∀ c, after.head? = some c → isMark c = true) :
    MaximalRun (!isMark ·) between after := by
  constructor
  · intro c hc
    simp [front.unmarked c hc]
  · intro c hc
    simp [marked c hc]

theorem TypedFront.dropWhile_eq_nil {lead between : List Char} (front : TypedFront lead between) :
    between.dropWhile (!isMark ·) = [] := by
  have run := front.run [] (by simp)
  have hdrop := run.dropWhile_eq
  rwa [List.append_nil] at hdrop

theorem marked_cons {mark : Char} (h : isMark mark = true) (after : List Char) :
    ∀ c, (mark :: after).head? = some c → isMark c = true := by
  intro c hc
  cases hc
  exact h

theorem isMark_of_sort {mark : Char} (sort : mark = ';' ∨ mark = '=') : isMark mark = true := by
  rcases sort with rfl | rfl <;> decide

theorem ne_brace_of_sort {mark : Char} (sort : mark = ';' ∨ mark = '=') : mark ≠ '\x7b' := by
  rcases sort with rfl | rfl <;> decide

namespace Segment

inductive Stands : Segment → List Char → Prop where
  | blank {text rest : List Char} (some_text : text ≠ [])
      (run : MaximalRun Text.isAsciiBlank text rest) : Stands (.blank text) rest
  | lineComment {body rest : List Char} (run : MaximalRun isNotLineFeed body rest) :
      Stands (.lineComment ('/' :: '/' :: body)) rest
  | closedComment {body rest : List Char} (first : ¬ closer <:+: body ++ ['*']) :
      Stands (.blockComment ('/' :: '*' :: (body ++ closer)) true) rest
  | openComment {body : List Char} (never : ¬ closer <:+: body) :
      Stands (.blockComment ('/' :: '*' :: body) false) []
  | constantLine {tail rest : List Char}
      (boundary : ∀ c, tail.head? = some c → isWordChar c = false)
      (line : ∀ c ∈ tail, isNotLineFeed c = true)
      (ends : EndsLine (constantKeyword.toList ++ tail) rest) :
      Stands (.declaration .constant (constantKeyword.toList ++ tail)) rest
  | variableLine {lead between tail rest : List Char} {mark : Char}
      (front : TypedFront lead between)
      (sort : mark = ';' ∨ mark = '=') (line : ∀ c ∈ tail, isNotLineFeed c = true)
      (ends : EndsLine (lead ++ between ++ [mark] ++ tail) rest) :
      Stands (.declaration .variable (lead ++ between ++ [mark] ++ tail)) rest
  | functionBody {lead between body rest : List Char} (front : TypedFront lead between)
      (inside : GroupBody body) :
      Stands (.declaration .function (lead ++ between ++ '\x7b' :: (body ++ ['\x7d']))) rest
  | word {c : Char} {tail rest : List Char} (lead : isLead c = true)
      (run : MaximalRun isWordChar tail rest) (plain : String.ofList (c :: tail) ≠ constantKeyword)
      (untyped : isBaseType (String.ofList (c :: tail)) = false) : Stands (.word (c :: tail)) rest
  | other {c : Char} {rest : List Char} (solid : Text.isAsciiBlank c = false)
      (unled : isLead c = false)
      (uncommented : c = '/' → rest.head? ≠ some '/' ∧ rest.head? ≠ some '*') :
      Stands (.other c) rest
  | truncated {lead tail : List Char} (front : TypedFront lead tail) :
      Stands (.truncated lead (lead ++ tail)) []
  | unclosed {lead between body : List Char} (front : TypedFront lead between)
      (held : HoldsOpen 1 body) : Stands (.unclosed lead (lead ++ between ++ '\x7b' :: body)) []

/-! ## Characters at the front -/

theorem isAsciiBlank_of_isLead {c : Char} (h : isLead c = true) : Text.isAsciiBlank c = false := by
  have solid := isBlank_of_isLead h
  cases hb : Text.isAsciiBlank c with
  | false => rfl
  | true => rw [Text.isBlank_of_isAsciiBlank hb] at solid; cases solid

theorem ne_slash_of_isLead {c : Char} (h : isLead c = true) : c ≠ '/' := by
  rintro rfl
  revert h
  decide

private theorem isBlank_of_isWordChar {c : Char} (h : isWordChar c = true) :
    Text.isBlank c = false := by
  by_cases hlead : isLead c = true
  · exact isBlank_of_isLead hlead
  · have hdigit : isAsciiDigit c = true := by
      simp only [isLead, isWordChar, Bool.or_eq_true] at h hlead
      rcases h with (h | h) | h
      · exact absurd (.inl h) hlead
      · exact h
      · exact absurd (.inr h) hlead
    simp only [isAsciiDigit, Bool.and_eq_true, decide_eq_true_eq] at hdigit
    have hlow : ('0' : Char).toNat ≤ c.toNat := hdigit.1
    have hhigh : c.toNat ≤ ('9' : Char).toNat := hdigit.2
    simp at hlow hhigh
    simp [Text.isBlank, Text.inRanges, Text.blankRanges]
    omega

/-- No word goes on behind a text that reaches the end of its line. -/
theorem boundary_of_endsLine {text rest : List Char} (ends : EndsLine text rest) :
    ∀ c, rest.head? = some c → isWordChar c = false := by
  intro c hc
  cases hw : isWordChar c with
  | false => rfl
  | true =>
      obtain ⟨rest, rfl⟩ := List.head?_eq_some_iff.mp hc
      have hline : isNotLineFeed c = true := by
        cases hl : isNotLineFeed c with
        | true => rfl
        | false =>
            have : c = '\n' := by simpa [isNotLineFeed] using hl
            subst this
            revert hw
            decide
      have hblank := ends.blanks c (by simp [hline])
      rw [isBlank_of_isWordChar hw] at hblank
      cases hblank

theorem isWordChar_of_isMark {c : Char} (h : isMark c = true) : isWordChar c = false := by
  simp only [isMark, Bool.or_eq_true, decide_eq_true_eq] at h
  rcases h with (rfl | rfl) | rfl <;> decide

theorem lineComment?_eq_none_iff {c : Char} {cs : List Char} :
    lineComment? (c :: cs) = none ↔ ¬ (c = '/' ∧ cs.head? = some '/') := by
  unfold lineComment?
  split
  · simp_all
  · next hn =>
      simp only [true_iff]
      rintro ⟨rfl, head⟩
      obtain ⟨rest, rfl⟩ := List.head?_eq_some_iff.mp head
      exact hn rest rfl

theorem blockComment?_eq_none_iff {c : Char} {cs : List Char} :
    blockComment? (c :: cs) = none ↔ ¬ (c = '/' ∧ cs.head? = some '*') := by
  unfold blockComment?
  split
  · next rest heq =>
      obtain ⟨rfl, rfl⟩ := List.cons.inj heq
      split <;> simp
  · next hn =>
      simp only [true_iff]
      rintro ⟨rfl, head⟩
      obtain ⟨rest, rfl⟩ := List.head?_eq_some_iff.mp head
      exact hn rest rfl

theorem lineComment?_of_run {body rest : List Char} (run : MaximalRun isNotLineFeed body rest) :
    lineComment? ('/' :: '/' :: (body ++ rest)) = some ('/' :: '/' :: body, rest) := by
  rw [lineComment?, run.takeWhile_eq, run.dropWhile_eq]

theorem blockComment?_closed {body : List Char} (rest : List Char)
    (first : ¬ closer <:+: body ++ ['*']) :
    blockComment? ('/' :: '*' :: (body ++ closer ++ rest)) =
      some ⟨'/' :: '*' :: (body ++ closer), true, rest⟩ := by
  have hbody := closerAux_of_first [] rest first
  simp only [closer, List.append_assoc, List.cons_append, List.nil_append] at hbody ⊢
  rw [blockComment?, hbody]
  rfl

theorem blockComment?_open {body : List Char} (never : ¬ closer <:+: body) :
    blockComment? ('/' :: '*' :: body) = some ⟨'/' :: '*' :: body, false, []⟩ := by
  rw [blockComment?, closerAux_eq_none_iff.mpr never]

theorem keyword_word {lead : List Char}
    (h : String.ofList lead = constantKeyword ∨ isBaseType (String.ofList lead) = true) :
    ∃ c tail, lead = c :: tail ∧ isLead c = true ∧ ∀ d ∈ tail, isWordChar d = true := by
  have hl : lead = "const".toList ∨ lead = "int".toList ∨ lead = "void".toList ∨
      lead = "char".toList ∨ lead = "double".toList ∨ lead = "float".toList := by
    simpa [constantKeyword, isBaseType, baseTypes, String.ext_iff] using h
  rcases hl with rfl | rfl | rfl | rfl | rfl | rfl
  all_goals exact ⟨_, _, rfl, by decide, List.all_eq_true.mp (by decide)⟩

theorem keyword_ne_nil {lead : List Char}
    (h : String.ofList lead = constantKeyword ∨ isBaseType (String.ofList lead) = true) :
    lead ≠ [] := by
  obtain ⟨c, tail, rfl, -⟩ := keyword_word h
  exact List.cons_ne_nil c tail

/-! ## The scan takes what stands -/

theorem first_of_lead {c : Char} {tail rest : List Char} (lead : isLead c = true)
    (run : MaximalRun isWordChar tail rest) :
    first c (tail ++ rest) = captureWord (c :: tail) rest := by
  unfold first
  rw [if_neg (by simp [isAsciiBlank_of_isLead lead]),
    lineComment?_eq_none_iff.mpr fun h => ne_slash_of_isLead lead h.1,
    blockComment?_eq_none_iff.mpr fun h => ne_slash_of_isLead lead h.1, if_pos lead,
    run.takeWhile_eq, run.dropWhile_eq]

theorem segments_keyword {lead rest : List Char}
    (h : String.ofList lead = constantKeyword ∨ isBaseType (String.ofList lead) = true)
    (boundary : ∀ c, rest.head? = some c → isWordChar c = false) :
    segments (lead ++ rest) =
      (captureWord lead rest).1 :: segments (captureWord lead rest).2 := by
  obtain ⟨c, tail, rfl, hlead, inside⟩ := keyword_word h
  rw [List.cons_append, segments_cons, first_of_lead hlead ⟨inside, boundary⟩]

theorem ne_constantKeyword_of_isBaseType {word : String} (base : isBaseType word = true) :
    word ≠ constantKeyword := by
  rintro rfl
  revert base
  decide

theorem captureWord_base {lead : List Char} (rest : List Char)
    (base : isBaseType (String.ofList lead) = true) :
    captureWord lead rest = captureTyped lead rest := by
  rw [captureWord, if_neg (ne_constantKeyword_of_isBaseType base), if_pos base]

theorem head_append {p : Char → Bool} {xs ys : List Char}
    (hx : ∀ c, xs.head? = some c → p c = false) (hy : ∀ c, ys.head? = some c → p c = false) :
    ∀ c, (xs ++ ys).head? = some c → p c = false := by
  cases xs with
  | nil => exact hy
  | cons x xs => exact hx

theorem segments_typed {lead between : List Char} (front : TypedFront lead between)
    (after : List Char) (marked : ∀ c, after.head? = some c → isMark c = true) :
    segments (lead ++ (between ++ after)) =
      (captureTyped lead (between ++ after)).1 ::
        segments (captureTyped lead (between ++ after)).2 := by
  have boundary : ∀ c, (between ++ after).head? = some c → isWordChar c = false :=
    head_append front.boundary fun c hc => isWordChar_of_isMark (marked c hc)
  rw [segments_keyword (.inr front.base) boundary, captureWord_base _ front.base]

theorem captureTyped_variable {lead between : List Char} {mark : Char} (after : List Char)
    (front : TypedFront lead between) (sort : mark = ';' ∨ mark = '=') :
    captureTyped lead (between ++ mark :: after) =
      captureLine .variable (lead ++ between ++ [mark]) after := by
  have run := front.run (mark :: after) (marked_cons (isMark_of_sort sort) after)
  simp only [captureTyped, run.takeWhile_eq, run.dropWhile_eq, if_neg (ne_brace_of_sort sort)]

theorem captureTyped_closed {lead between after group rest : List Char}
    (front : TypedFront lead between) (h : closing? ('\x7b' :: after) = some (group, rest)) :
    captureTyped lead (between ++ '\x7b' :: after) =
      (.declaration .function (lead ++ between ++ group), rest) := by
  have run := front.run ('\x7b' :: after) (marked_cons (by decide) after)
  simp only [captureTyped, run.takeWhile_eq, run.dropWhile_eq, if_true, h]

theorem captureTyped_unclosed {lead between after : List Char}
    (front : TypedFront lead between) (h : closing? ('\x7b' :: after) = none) :
    captureTyped lead (between ++ '\x7b' :: after) =
      (.unclosed lead (lead ++ (between ++ '\x7b' :: after)), []) := by
  have run := front.run ('\x7b' :: after) (marked_cons (by decide) after)
  simp only [captureTyped, run.takeWhile_eq, run.dropWhile_eq, if_true, h]

/-- Wherever a segment can stand, the scan takes it and goes on behind it. -/
theorem segments_of_stands {s : Segment} {rest : List Char} (h : Stands s rest) :
    segments (s.text ++ rest) = s :: segments rest := by
  cases h with
  | @blank text rest some_text run =>
      obtain ⟨c, tail, rfl⟩ := List.exists_cons_of_ne_nil some_text
      have hc : Text.isAsciiBlank c = true := run.inside c List.mem_cons_self
      have htail : MaximalRun Text.isAsciiBlank tail rest :=
        ⟨fun d hd => run.inside d (List.mem_cons_of_mem c hd), run.stop⟩
      rw [text, List.cons_append, segments_cons, first, if_pos hc, htail.takeWhile_eq,
        htail.dropWhile_eq]
  | @lineComment body rest run =>
      rw [text, List.cons_append, List.cons_append, segments_cons, first, if_neg (by decide),
        lineComment?_of_run run]
  | @closedComment body rest hfirst =>
      rw [text, List.cons_append, List.cons_append, segments_cons, first, if_neg (by decide),
        lineComment?_eq_none_iff.mpr (by simp), blockComment?_closed rest hfirst]
  | @openComment body never =>
      rw [text, List.append_nil, segments_cons, first, if_neg (by decide),
        lineComment?_eq_none_iff.mpr (by simp), blockComment?_open never]
  | @constantLine tail rest boundary line ends =>
      have hkey : String.ofList constantKeyword.toList = constantKeyword := by simp
      have hstop : ∀ c, (tail ++ rest).head? = some c → isWordChar c = false :=
        head_append boundary (boundary_of_endsLine ends)
      rw [text, List.append_assoc, segments_keyword (.inl hkey) hstop, captureWord, if_pos hkey,
        captureLine_of_endsLine .constant line ends]
  | @variableLine lead between tail rest mark front sort line ends =>
      have htext : lead ++ between ++ [mark] ++ tail ++ rest =
          lead ++ (between ++ mark :: (tail ++ rest)) := by simp
      rw [text, htext, segments_typed front _ (marked_cons (isMark_of_sort sort) _),
        captureTyped_variable _ front sort, captureLine_of_endsLine .variable line ends]
  | @functionBody lead between body rest front inside =>
      have htext : lead ++ between ++ '\x7b' :: (body ++ ['\x7d']) ++ rest =
          lead ++ (between ++ '\x7b' :: (body ++ '\x7d' :: rest)) := by simp
      rw [text, htext, segments_typed front _ (marked_cons (by decide) _),
        captureTyped_closed front (closing?_of_groupBody rest inside)]
  | @word c tail rest lead run plain untyped =>
      rw [text, List.cons_append, segments_cons, first_of_lead lead run, captureWord,
        if_neg plain, if_neg (ne_true_of_eq_false untyped)]
  | @other c rest solid unled uncommented =>
      have hline : lineComment? (c :: rest) = none :=
        lineComment?_eq_none_iff.mpr fun h => (uncommented h.1).1 h.2
      have hblock : blockComment? (c :: rest) = none :=
        blockComment?_eq_none_iff.mpr fun h => (uncommented h.1).2 h.2
      rw [text, List.singleton_append, segments_cons, first, if_neg (by simp [solid]), hline,
        hblock, if_neg (by simp [unled])]
  | @truncated lead tail front =>
      have hseg := segments_typed front [] (by simp)
      rw [List.append_nil] at hseg
      rw [text, List.append_nil, hseg]
      simp only [captureTyped, front.dropWhile_eq_nil]
  | @unclosed lead between body front held =>
      have htext : lead ++ between ++ '\x7b' :: body ++ [] =
          lead ++ (between ++ '\x7b' :: body) := by simp
      rw [text, htext, segments_typed front _ (marked_cons (by decide) _),
        captureTyped_unclosed front (closing?_eq_none_iff.mpr held)]
      simp

/-! ## What the scan takes stands -/

private theorem captureTyped_stands {lead rest : List Char}
    (base : isBaseType (String.ofList lead) = true)
    (boundary : ∀ c, rest.head? = some c → isWordChar c = false) :
    Stands (captureTyped lead rest).1 (captureTyped lead rest).2 := by
  have run := MaximalRun.of_split (!isMark ·) rest
  have hsplit := List.takeWhile_append_dropWhile (p := (!isMark ·)) (l := rest)
  have front : TypedFront lead (rest.takeWhile (!isMark ·)) := by
    refine ⟨base, ?_, ?_⟩
    · intro c hc
      apply boundary c
      rw [← hsplit, List.head?_append, hc]
      rfl
    · intro c hc
      simpa using run.inside c hc
  generalize rest.takeWhile (!isMark ·) = between at *
  cases hafter : rest.dropWhile (!isMark ·) with
  | nil =>
      rw [hafter, List.append_nil] at hsplit
      subst hsplit
      simpa only [captureTyped, hafter] using Stands.truncated front
  | cons mark after =>
      rw [hafter] at hsplit
      subst hsplit
      have hmark : isMark mark = true := by
        simpa using run.stop mark (by rw [hafter]; rfl)
      by_cases hbrace : mark = '\x7b'
      · subst hbrace
        cases hclosing : closing? ('\x7b' :: after) with
        | none =>
            have held := closing?_eq_none_iff.mp hclosing
            rw [captureTyped_unclosed front hclosing]
            simpa only [List.append_assoc] using Stands.unclosed front held
        | some found =>
            obtain ⟨group, rest⟩ := found
            rw [captureTyped_closed front hclosing]
            obtain ⟨body, -, rfl, inside⟩ := closing?_some hclosing
            exact Stands.functionBody front inside
      · have hsort : mark = ';' ∨ mark = '=' := by
          simpa [isMark, hbrace] using hmark
        have solid : EndsSolid (lead ++ between ++ [mark]) := by
          intro c hc
          rw [List.getLast?_concat] at hc
          cases hc
          rcases hsort with rfl | rfl <;> decide
        obtain ⟨tail, rest, -, line, ends, hcapture⟩ :=
          captureLine_endsLine .variable after solid
        rw [captureTyped_variable after front hsort, hcapture]
        exact Stands.variableLine front hsort line ends

private theorem captureWord_stands {c : Char} {tail rest : List Char} (lead : isLead c = true)
    (run : MaximalRun isWordChar tail rest) :
    Stands (captureWord (c :: tail) rest).1 (captureWord (c :: tail) rest).2 := by
  unfold captureWord
  split
  · next hkey =>
      have hlist : c :: tail = constantKeyword.toList := by
        rw [← hkey, String.toList_ofList]
      have solid : EndsSolid constantKeyword.toList := by
        intro d hd
        have : d = 't' := by simpa [constantKeyword] using hd.symm
        subst this
        decide
      obtain ⟨after, rest', rfl, line, ends, hcapture⟩ := captureLine_endsLine .constant rest solid
      rw [hlist, hcapture]
      refine Stands.constantLine ?_ line ends
      intro d hd
      apply run.stop d
      rw [List.head?_append, hd]
      rfl
  · split
    · next base => exact captureTyped_stands base run.stop
    · next plain untyped => exact Stands.word lead run plain (eq_false_of_ne_true untyped)

private theorem lineComment_stands {cs text rest : List Char}
    (h : lineComment? cs = some (text, rest)) :
    Stands (.lineComment text) rest := by
  unfold lineComment? at h
  split at h
  · next cs =>
      cases h
      exact Stands.lineComment (MaximalRun.of_split isNotLineFeed cs)
  · cases h

private theorem blockComment_stands {cs : List Char} {b : BlockComment}
    (h : blockComment? cs = some b) :
    Stands (.blockComment b.text b.closed) b.rest := by
  unfold blockComment? at h
  split at h
  · next cs =>
      split at h
      · next body rest hcloser =>
          cases h
          obtain ⟨inside, -, rfl, first⟩ := closerAux_some hcloser
          exact Stands.closedComment first
      · next hcloser =>
          cases h
          exact Stands.openComment (closerAux_eq_none_iff.mp hcloser)
  · cases h

theorem first_stands (c : Char) (cs : List Char) :
    Stands (first c cs).1 (first c cs).2 := by
  unfold first
  split
  · next hblank =>
      have run := MaximalRun.of_split Text.isAsciiBlank cs
      refine Stands.blank (by simp) ⟨?_, run.stop⟩
      intro d hd
      rcases List.mem_cons.mp hd with rfl | hd
      · exact hblank
      · exact run.inside d hd
  · next hsolid =>
      split
      · next text rest hline => exact lineComment_stands hline
      · next hline =>
          split
          · next comment hblock => exact blockComment_stands hblock
          · next hblock =>
              split
              · next lead => exact captureWord_stands lead (MaximalRun.of_split isWordChar cs)
              · next unled =>
                  refine Stands.other (eq_false_of_ne_true hsolid) (eq_false_of_ne_true unled) ?_
                  intro hslash
                  exact ⟨fun h => lineComment?_eq_none_iff.mp hline ⟨hslash, h⟩,
                    fun h => blockComment?_eq_none_iff.mp hblock ⟨hslash, h⟩⟩

end Segment

end CInventory.Scan
