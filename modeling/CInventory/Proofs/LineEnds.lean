import Mathlib
import CInventory.Proofs.Composition

/-!
# Line ends

A carriage return in front of every line feed changes nothing that a scan reports but the line
ends inside the texts. No rule for a segment tells a carriage return from a line feed, but for the
end of a line: there the carriage return is one more blank in front of it. A line comment takes it
in, everything else leaves it to the run of blanks that follows.
-/

namespace CInventory

namespace Text

/-- Every line feed with a carriage return in front of it. -/
def withReturns (cs : List Char) : List Char :=
  cs.flatMap fun c => if c = '\n' then ['\r', '\n'] else [c]

@[simp] theorem withReturns_nil : withReturns [] = [] := rfl

@[simp] theorem withReturns_lineFeed (cs : List Char) :
    withReturns ('\n' :: cs) = '\r' :: '\n' :: withReturns cs := rfl

theorem withReturns_cons {c : Char} (h : c ≠ '\n') (cs : List Char) :
    withReturns (c :: cs) = c :: withReturns cs := by
  simp [withReturns, h]

@[simp] theorem withReturns_append (xs ys : List Char) :
    withReturns (xs ++ ys) = withReturns xs ++ withReturns ys := by
  simp [withReturns]

theorem withReturns_eq_self {cs : List Char} (h : '\n' ∉ cs) : withReturns cs = cs := by
  induction cs with
  | nil => rfl
  | cons c cs ih =>
      rw [List.mem_cons, not_or] at h
      rw [withReturns_cons (Ne.symm h.1), ih h.2]

theorem mem_withReturns {c : Char} {cs : List Char} (h : c ∈ withReturns cs) :
    c ∈ cs ∨ (c = '\r' ∧ '\n' ∈ cs) := by
  obtain ⟨d, hd, hc⟩ := List.mem_flatMap.mp h
  split at hc
  · next heq =>
      subst heq
      rcases List.mem_pair.mp hc with rfl | rfl
      · exact .inr ⟨rfl, hd⟩
      · exact .inl hd
  · rw [List.mem_singleton.mp hc]
    exact .inl hd

theorem head?_withReturns {c : Char} {cs : List Char} (h : (withReturns cs).head? = some c) :
    cs.head? = some c ∨ (c = '\r' ∧ cs.head? = some '\n') := by
  cases cs with
  | nil => cases h
  | cons d cs =>
      by_cases hd : d = '\n'
      · subst hd
        exact .inr ⟨(Option.some.inj h).symm, rfl⟩
      · rw [withReturns_cons hd] at h
        exact .inl h

theorem getLast?_withReturns (cs : List Char) : (withReturns cs).getLast? = cs.getLast? := by
  rcases List.eq_nil_or_concat' cs with rfl | ⟨front, c, rfl⟩
  · rfl
  · rw [withReturns_append, List.getLast?_concat]
    by_cases hc : c = '\n'
    · simp [hc]
    · simp [withReturns_cons hc]

theorem count_withReturns {c : Char} (h : c ≠ '\r') (cs : List Char) :
    (withReturns cs).count c = cs.count c := by
  induction cs with
  | nil => rfl
  | cons d cs ih =>
      by_cases hd : d = '\n'
      · subst hd
        rw [withReturns_lineFeed, List.count_cons_of_ne (Ne.symm h), List.count_cons,
          List.count_cons, ih]
      · rw [withReturns_cons hd, List.count_cons, List.count_cons, ih]

/-- A front part of the longer text is one of the shorter text, up to a last carriage return. -/
theorem exists_of_prefix_withReturns {front cs : List Char} (h : front <+: withReturns cs) :
    ∃ part, part <+: cs ∧ (front = withReturns part ∨ front = withReturns part ++ ['\r']) := by
  induction cs generalizing front with
  | nil =>
      rw [withReturns_nil, List.prefix_nil] at h
      exact ⟨[], List.nil_prefix, .inl h⟩
  | cons c cs ih =>
      by_cases hc : c = '\n'
      · subst hc
        rw [withReturns_lineFeed] at h
        rcases List.prefix_cons_iff.mp h with rfl | ⟨tail, rfl, htail⟩
        · exact ⟨[], List.nil_prefix, .inl rfl⟩
        · rcases List.prefix_cons_iff.mp htail with rfl | ⟨rest, rfl, hrest⟩
          · exact ⟨[], List.nil_prefix, .inr rfl⟩
          · obtain ⟨part, hpart, hfront⟩ := ih hrest
            refine ⟨'\n' :: part, List.cons_prefix_cons.mpr ⟨rfl, hpart⟩, ?_⟩
            rcases hfront with rfl | rfl
            · exact .inl rfl
            · exact .inr rfl
      · rw [withReturns_cons hc] at h
        rcases List.prefix_cons_iff.mp h with rfl | ⟨tail, rfl, htail⟩
        · exact ⟨[], List.nil_prefix, .inl rfl⟩
        · obtain ⟨part, hpart, hfront⟩ := ih htail
          refine ⟨c :: part, List.cons_prefix_cons.mpr ⟨rfl, hpart⟩, ?_⟩
          rw [withReturns_cons hc]
          rcases hfront with rfl | rfl
          · exact .inl rfl
          · exact .inr rfl

end Text

/-! ## Positions -/

/-- The same line and column; the offsets may differ. -/
structure Position.SameSpot (p q : Position) : Prop where
  line : q.line = p.line
  column : q.column = p.column

theorem Position.SameSpot.walk {p q : Position} (h : p.SameSpot q) (cs : List Char) :
    (p.walk cs).SameSpot (q.walk (Text.withReturns cs)) := by
  induction cs generalizing p q with
  | nil => exact h
  | cons c cs ih =>
      by_cases hc : c = '\n'
      · subst hc
        apply ih
        constructor
        · simp [Position.step, h.line]
        · simp [Position.step]
      · rw [Text.withReturns_cons hc, Position.walk_cons, Position.walk_cons]
        apply ih
        constructor
        · simp [Position.step, hc, h.line]
        · simp [Position.step, hc, h.column]

theorem Text.byteLength_le_withReturns (cs : List Char) :
    Text.byteLength cs ≤ Text.byteLength (Text.withReturns cs) := by
  induction cs with
  | nil => exact Nat.le_refl _
  | cons c cs ih =>
      by_cases hc : c = '\n'
      · subst hc
        rw [Text.withReturns_lineFeed, Text.byteLength_cons, Text.byteLength_cons,
          Text.byteLength_cons]
        omega
      · rw [Text.withReturns_cons hc, Text.byteLength_cons, Text.byteLength_cons]
        omega

theorem PositionsFit.of_withReturns {cs : List Char} (fit : PositionsFit (Text.withReturns cs)) :
    PositionsFit cs := by
  rintro front ⟨back, rfl⟩
  have hlong : (Position.start.walk (Text.withReturns front)).fits = true :=
    fit _ ⟨Text.withReturns back, (Text.withReturns_append front back).symm⟩
  have hspot := Position.SameSpot.walk (p := .start) (q := .start) ⟨rfl, rfl⟩ front
  have hshort := Position.start.walk_offset front
  have hlonger := Position.start.walk_offset (Text.withReturns front)
  have hbytes := Text.byteLength_le_withReturns front
  have hline := hspot.line
  have hcolumn := hspot.column
  rw [Position.fits_iff] at hlong ⊢
  omega

namespace Scan

open Text (withReturns)

/-! ## Rules that know no carriage returns -/

/-- A class that holds both line ends or none has the same runs. -/
theorem MaximalRun.withReturns {p : Char → Bool} (same : p '\r' = p '\n') {text rest : List Char}
    (run : MaximalRun p text rest) : MaximalRun p (withReturns text) (withReturns rest) := by
  constructor
  · intro c hc
    rcases Text.mem_withReturns hc with hmem | ⟨rfl, hmem⟩
    · exact run.inside c hmem
    · rw [same]
      exact run.inside _ hmem
  · intro c hc
    rcases Text.head?_withReturns hc with hhead | ⟨rfl, hhead⟩
    · exact run.stop c hhead
    · rw [same]
      exact run.stop _ hhead

private theorem head_withReturns {p : Char → Bool} (same : p '\r' = p '\n') {cs : List Char}
    (h : ∀ c, cs.head? = some c → p c = false) :
    ∀ c, (withReturns cs).head? = some c → p c = false :=
  (MaximalRun.withReturns same ⟨by simp, h⟩ : MaximalRun p (withReturns []) _).stop

private theorem closer_infix_withReturns {cs : List Char} :
    closer <:+: withReturns cs ↔ closer <:+: cs := by
  induction cs with
  | nil => rfl
  | cons c cs ih =>
      by_cases hc : c = '\n'
      · subst hc
        simp [closer_infix_cons, ih]
      · have hhead : (withReturns cs).head? = some '/' ↔ cs.head? = some '/' := by
          constructor
          · intro h
            rcases Text.head?_withReturns h with h | ⟨h, -⟩
            · exact h
            · cases h
          · intro h
            obtain ⟨rest, rfl⟩ := List.head?_eq_some_iff.mp h
            rfl
        rw [Text.withReturns_cons hc, closer_infix_cons, closer_infix_cons, hhead, ih]

theorem HoldsOpen.withReturns {depth : Nat} {cs : List Char} (held : HoldsOpen depth cs) :
    HoldsOpen depth (withReturns cs) := by
  intro front hfront
  obtain ⟨part, hpart, rfl | rfl⟩ := Text.exists_of_prefix_withReturns hfront
  · rw [Text.count_withReturns (by decide), Text.count_withReturns (by decide)]
    exact held part hpart
  · rw [List.count_append, List.count_append, Text.count_withReturns (by decide),
      Text.count_withReturns (by decide)]
    exact held part hpart

theorem GroupBody.withReturns {body : List Char} (inside : GroupBody body) :
    GroupBody (withReturns body) := by
  refine ⟨inside.1.withReturns, ?_⟩
  rw [Text.count_withReturns (by decide), Text.count_withReturns (by decide)]
  exact inside.2

theorem TypedFront.withReturns {lead between : List Char} (front : TypedFront lead between) :
    TypedFront lead (withReturns between) := by
  refine ⟨front.base, head_withReturns rfl front.boundary, ?_⟩
  intro c hc
  rcases Text.mem_withReturns hc with hc | ⟨rfl, -⟩
  · exact front.unmarked c hc
  · rfl

private theorem takeWhile_withReturns (cs : List Char) :
    ∀ c ∈ (withReturns cs).takeWhile isNotLineFeed,
      c ∈ cs.takeWhile isNotLineFeed ∨ c = '\r' := by
  induction cs with
  | nil => simp
  | cons d cs ih =>
      intro c hc
      by_cases hd : d = '\n'
      · subst hd
        have hblank : ('\r' :: '\n' :: withReturns cs).takeWhile isNotLineFeed = ['\r'] := rfl
        rw [Text.withReturns_lineFeed, hblank] at hc
        exact .inr (List.mem_singleton.mp hc)
      · have hline : isNotLineFeed d = true := by simp [isNotLineFeed, hd]
        rw [Text.withReturns_cons hd, List.takeWhile_cons_of_pos hline, List.mem_cons] at hc
        rw [List.takeWhile_cons_of_pos hline, List.mem_cons]
        rcases hc with hc | hc
        · exact .inl (.inl hc)
        · rcases ih c hc with hc | hc
          · exact .inl (.inr hc)
          · exact .inr hc

/-- The end of a line may have one more blank in front of it. -/
theorem EndsLine.withReturns {text rest : List Char} (ends : EndsLine text rest) :
    EndsLine (withReturns text) (withReturns rest) := by
  constructor
  · intro c hc
    rw [Text.getLast?_withReturns] at hc
    exact ends.solid c hc
  · intro c hc
    rcases takeWhile_withReturns rest c hc with hc | rfl
    · exact ends.blanks c hc
    · decide

private theorem withReturns_line {tail : List Char} (line : ∀ c ∈ tail, isNotLineFeed c = true) :
    withReturns tail = tail :=
  Text.withReturns_eq_self (isNotLineFeed_iff_not_mem.mp line)

private theorem withReturns_word {word : List Char} (h : ∀ c ∈ word, isWordChar c = true) :
    withReturns word = word := by
  apply Text.withReturns_eq_self
  intro hmem
  exact absurd (h _ hmem) (by decide)

theorem TypedFront.withReturns_lead {lead between : List Char} (front : TypedFront lead between) :
    Text.withReturns lead = lead := by
  obtain ⟨c, tail, rfl, hlead, htail⟩ := Segment.keyword_word (.inr front.base)
  apply withReturns_word
  intro d hd
  rcases List.mem_cons.mp hd with rfl | hd
  · exact isWordChar_of_isLead hlead
  · exact htail d hd

namespace Segment

/-- The same segment in a text with carriage returns. -/
def withReturns : Segment → Segment
  | .blank text => .blank (Text.withReturns text)
  | .lineComment text => .lineComment (Text.withReturns text)
  | .blockComment text closed => .blockComment (Text.withReturns text) closed
  | .declaration kind text => .declaration kind (Text.withReturns text)
  | .word text => .word text
  | .other c => .other c
  | .truncated lead text => .truncated lead (Text.withReturns text)
  | .unclosed lead text => .unclosed lead (Text.withReturns text)

def isLineComment : Segment → Bool
  | .lineComment _ => true
  | _ => false

theorem Stands.text_withReturns {s : Segment} {rest : List Char} (stands : s.Stands rest) :
    s.withReturns.text = Text.withReturns s.text := by
  cases stands with
  | @word c tail rest lead run plain untyped =>
      refine (withReturns_word ?_).symm
      intro d hd
      rcases List.mem_cons.mp hd with rfl | hd
      · exact isWordChar_of_isLead lead
      · exact run.inside d hd
  | @other c rest solid unled uncommented =>
      refine (Text.withReturns_eq_self ?_).symm
      intro hmem
      obtain rfl := List.mem_singleton.mp hmem
      exact absurd solid (by decide)
  | _ => rfl

/-- All but line comments stand where they did. -/
theorem Stands.withReturns {s : Segment} {rest : List Char} (stands : s.Stands rest)
    (other : s.isLineComment = false) : s.withReturns.Stands (Text.withReturns rest) := by
  cases stands with
  | @blank text rest some_text run =>
      refine .blank ?_ (run.withReturns rfl)
      obtain ⟨c, tail, rfl⟩ := List.exists_cons_of_ne_nil some_text
      by_cases hc : c = '\n'
      · simp [hc]
      · simp [Text.withReturns_cons hc]
  | lineComment run => cases other
  | @closedComment body rest first =>
      have hfirst : ¬ closer <:+: Text.withReturns body ++ ['*'] := by
        have hbody : Text.withReturns (body ++ ['*']) = Text.withReturns body ++ ['*'] :=
          Text.withReturns_append body ['*']
        rwa [← hbody, closer_infix_withReturns]
      have htext : Text.withReturns ('/' :: '*' :: (body ++ closer)) =
          '/' :: '*' :: (Text.withReturns body ++ closer) := by
        rw [Text.withReturns_cons (by decide), Text.withReturns_cons (by decide),
          Text.withReturns_append]
        rfl
      rw [Segment.withReturns, htext]
      exact .closedComment hfirst
  | @openComment body never =>
      rw [Segment.withReturns, Text.withReturns_cons (by decide),
        Text.withReturns_cons (by decide)]
      exact .openComment (mt closer_infix_withReturns.mp never)
  | @constantLine tail rest boundary line ends =>
      have htext : Text.withReturns (constantKeyword.toList ++ tail) =
          constantKeyword.toList ++ tail := by
        rw [Text.withReturns_append, withReturns_line line]
        rfl
      have hends := ends.withReturns
      rw [htext] at hends
      rw [Segment.withReturns, htext]
      exact .constantLine boundary line hends
  | @variableLine lead between tail rest mark front sort line ends =>
      have hmark : Text.withReturns [mark] = [mark] := by
        rcases sort with rfl | rfl <;> rfl
      have htext : Text.withReturns (lead ++ between ++ [mark] ++ tail) =
          lead ++ Text.withReturns between ++ [mark] ++ tail := by
        simp only [Text.withReturns_append, front.withReturns_lead, hmark, withReturns_line line]
      have hends := ends.withReturns
      rw [htext] at hends
      rw [Segment.withReturns, htext]
      exact .variableLine front.withReturns sort line hends
  | @functionBody lead between body rest front inside =>
      have htext : Text.withReturns (lead ++ between ++ '\x7b' :: (body ++ ['\x7d'])) =
          lead ++ Text.withReturns between ++ '\x7b' :: (Text.withReturns body ++ ['\x7d']) := by
        rw [Text.withReturns_append, Text.withReturns_append, front.withReturns_lead,
          Text.withReturns_cons (by decide), Text.withReturns_append]
        rfl
      rw [Segment.withReturns, htext]
      exact .functionBody front.withReturns inside.withReturns
  | word lead run plain untyped =>
      have hrun := run.withReturns (by decide)
      rw [withReturns_word run.inside] at hrun
      exact .word lead hrun plain untyped
  | @other c rest solid unled uncommented =>
      refine .other solid unled ?_
      intro hslash
      obtain ⟨hline, hblock⟩ := uncommented hslash
      constructor
      · intro h
        rcases Text.head?_withReturns h with h | ⟨h, -⟩
        · exact hline h
        · cases h
      · intro h
        rcases Text.head?_withReturns h with h | ⟨h, -⟩
        · exact hblock h
        · cases h
  | @truncated lead tail front =>
      rw [Segment.withReturns, Text.withReturns_append, front.withReturns_lead]
      exact .truncated front.withReturns
  | @unclosed lead between body front held =>
      rw [Segment.withReturns, Text.withReturns_append, Text.withReturns_append,
        front.withReturns_lead, Text.withReturns_cons (by decide)]
      exact .unclosed front.withReturns held.withReturns

/-- A line comment takes in the carriage return at its end, if a line follows. -/
theorem Stands.lineComment_withReturns {text rest : List Char}
    (stands : (Segment.lineComment text).Stands rest) :
    (rest = [] ∧ (Segment.lineComment text).Stands []) ∨
    ∃ more, rest = '\n' :: more ∧
      (Segment.lineComment (text ++ ['\r'])).Stands ('\n' :: Text.withReturns more) := by
  cases stands with
  | @lineComment body rest run =>
      cases rest with
      | nil => exact .inl ⟨rfl, .lineComment run⟩
      | cons c more =>
          have hc : c = '\n' := by simpa [isNotLineFeed] using run.stop c rfl
          subst hc
          refine .inr ⟨more, rfl, .lineComment ⟨?_, ?_⟩⟩
          · intro d hd
            rcases List.mem_append.mp hd with hd | hd
            · exact run.inside d hd
            · rw [List.mem_singleton.mp hd]
              decide
          · intro d hd
            cases hd
            decide

theorem Stands.lineComment_line {text rest : List Char}
    (stands : (Segment.lineComment text).Stands rest) : Text.withReturns text = text := by
  cases stands with
  | lineComment run =>
      rw [Text.withReturns_cons (by decide), Text.withReturns_cons (by decide),
        withReturns_line run.inside]

end Segment

end Scan

/-! ## Scans side by side -/

structure Declaration.Respelled (d e : Declaration) : Prop where
  kind : e.kind = d.kind
  text : e.text = String.ofList (Text.withReturns d.text.toList)
  start : d.span.start.SameSpot e.span.start
  stop : d.span.stop.SameSpot e.span.stop

namespace Scan

/-- Placed segments that a scan reports alike: they count alike, and declarations are respelled. -/
structure Placed.Respelled (a b : Placed) : Prop where
  tally : Metrics.tally [b.segment] = Metrics.tally [a.segment]
  declaration : Option.Rel Declaration.Respelled a.declaration? b.declaration?

theorem Segment.tally_withReturns (s : Segment) :
    Metrics.tally [s.withReturns] = Metrics.tally [s] := by
  cases s with
  | blockComment text closed => cases closed <;> rfl
  | declaration kind text => cases kind <;> rfl
  | _ => rfl

theorem Segment.isVisible_withReturns (s : Segment) : s.withReturns.isVisible = s.isVisible := by
  cases s <;> rfl

theorem Segment.Stands.respelled {s : Segment} {rest : List Char} (stands : s.Stands rest)
    {p q : Position} (spot : p.SameSpot q) :
    Placed.Respelled ⟨s, ⟨p, p.walk s.text⟩⟩ ⟨s.withReturns, ⟨q, q.walk s.withReturns.text⟩⟩ := by
  refine ⟨Segment.tally_withReturns s, ?_⟩
  rw [stands.text_withReturns]
  cases s with
  | declaration kind text =>
      refine .some ⟨rfl, ?_, spot, spot.walk text⟩
      rw [String.toList_ofList]
  | _ => exact .none

/-- From the same line and column on, the visible segments of a text with carriage returns are
those of the text, respelled. -/
theorem visible_withReturns {cs : List Char} {parts : List Segment} (split : Splits cs parts)
    {p q : Position} (spot : p.SameSpot q) :
    List.Forall₂ Placed.Respelled (visible p cs) (visible q (Text.withReturns cs)) := by
  induction split generalizing p q with
  | nil =>
      rw [Text.withReturns_nil, visible_nil, visible_nil]
      exact .nil
  | @cons s rest parts stands split ih =>
      have hnext := ih (spot.walk s.text)
      rw [Text.withReturns_append]
      cases hv : s.isVisible with
      | false =>
          -- A run of blanks stays one, whatever blanks follow.
          have run : MaximalRun Text.isAsciiBlank s.text rest := by
            cases stands with
            | blank some_text run => exact run
            | _ => cases hv
          rw [visible_blanks p _ run.inside, visible_blanks q _ (run.withReturns rfl).inside]
          exact hnext
      | true =>
          rw [visible_of_stands p stands hv]
          cases hcomment : s.isLineComment with
          | false =>
              have hstands := stands.withReturns hcomment
              have hshown := (Segment.isVisible_withReturns s).trans hv
              rw [← stands.text_withReturns, visible_of_stands q hstands hshown]
              refine .cons (stands.respelled spot) ?_
              rw [stands.text_withReturns]
              exact hnext
          | true =>
              obtain ⟨text, rfl⟩ : ∃ text, s = .lineComment text := by
                cases s with
                | lineComment text => exact ⟨text, rfl⟩
                | _ => cases hcomment
              have hself := stands.lineComment_line
              rw [Segment.text] at hnext ⊢
              rw [hself] at hnext ⊢
              rcases stands.lineComment_withReturns with ⟨rfl, hstands⟩ | ⟨more, rfl, hstands⟩
              · have hvisible := visible_of_stands q hstands rfl
                rw [Segment.text] at hvisible
                rw [Text.withReturns_nil] at hnext ⊢
                rw [hvisible]
                exact .cons ⟨rfl, .none⟩ hnext
              · -- The carriage return is in the comment, and the others miss one blank only.
                have hvisible := visible_of_stands q hstands rfl
                have hmissed : visible (q.walk text) (['\r'] ++ '\n' :: Text.withReturns more) =
                    visible ((q.walk text).walk ['\r']) ('\n' :: Text.withReturns more) :=
                  visible_blanks _ _ (by simp [Text.isAsciiBlank])
                rw [Segment.text, List.append_assoc] at hvisible
                rw [Text.withReturns_lineFeed] at hnext ⊢
                refine hvisible ▸ .cons ⟨rfl, .none⟩ ?_
                rw [Position.walk_append]
                exact hmissed ▸ hnext

theorem tally_of_respelled {xs ys : List Placed} (h : List.Forall₂ Placed.Respelled xs ys) :
    Metrics.tally (ys.map Placed.segment) = Metrics.tally (xs.map Placed.segment) := by
  induction h with
  | nil => rfl
  | @cons a b xs ys hab _ ih =>
      rw [List.map_cons, List.map_cons, ← List.singleton_append,
        ← List.singleton_append (x := a.segment), Metrics.tally_append, Metrics.tally_append,
        hab.tally, ih]

theorem declarations_of_respelled {xs ys : List Placed}
    (h : List.Forall₂ Placed.Respelled xs ys) :
    List.Forall₂ Declaration.Respelled (xs.filterMap Placed.declaration?)
      (ys.filterMap Placed.declaration?) := by
  induction h with
  | nil => exact .nil
  | @cons a b xs ys hab _ ih =>
      rw [List.filterMap_cons, List.filterMap_cons]
      have hdeclared := hab.declaration
      generalize a.declaration? = found at hdeclared ⊢
      generalize b.declaration? = found' at hdeclared ⊢
      cases hdeclared with
      | none => exact ih
      | some hde => exact .cons hde ih

/-- Carriage returns in front of the line feeds leave the outcome of a scan as it is, but for the
line ends in the texts and the offsets. -/
theorem scan_withReturns (limits : Limits) (prefs : ScanPreferences) (source : String)
    (fit : PositionsFit (Text.withReturns source.toList)) :
    ∃ o o',
      scan limits prefs source = .ok o ∧
      scan limits prefs (String.ofList (Text.withReturns source.toList)) = .ok o' ∧
      List.Forall₂ Declaration.Respelled o.declarations o'.declarations ∧
      o'.metrics = o.metrics := by
  have hfit : PositionsFit (String.ofList (Text.withReturns source.toList)).toList := by
    rwa [String.toList_ofList]
  have hvisible := visible_withReturns (splits_segments source.toList) (p := .start) (q := .start)
    ⟨rfl, rfl⟩
  refine ⟨_, _, scan_of_fits limits prefs fit.of_withReturns, scan_of_fits limits prefs hfit,
    ?_, ?_⟩
  · rw [declarations_eq_visible, declarations_eq_visible, String.toList_ofList]
    exact declarations_of_respelled hvisible
  · rw [metrics_eq_visible, metrics_eq_visible, String.toList_ofList]
    exact tally_of_respelled hvisible

/-- A line end inside a declaration, one behind a comment and one in front of a body. -/
theorem scan_withReturns_threeLineEnds :
    PositionsFit (Text.withReturns "int x\n= 1;\n// \x7d\n\tvoid f()\n\x7b\x7d".toList) ∧
    ∃ o o',
      scan Limits.development {} "int x\n= 1;\n// \x7d\n\tvoid f()\n\x7b\x7d" = .ok o ∧
      scan Limits.development {} (String.ofList (Text.withReturns
        "int x\n= 1;\n// \x7d\n\tvoid f()\n\x7b\x7d".toList)) = .ok o' ∧
      o'.declarations = [⟨.variable, "int x\r\n= 1;", ⟨⟨0, 1, 1⟩, ⟨11, 2, 5⟩⟩⟩,
        ⟨.function, "void f()\r\n\x7b\x7d", ⟨⟨20, 4, 2⟩, ⟨32, 5, 3⟩⟩⟩] ∧
      List.Forall₂ Declaration.Respelled o.declarations o'.declarations ∧
      o'.metrics = o.metrics := by
  have fit : PositionsFit
      (Text.withReturns "int x\n= 1;\n// \x7d\n\tvoid f()\n\x7b\x7d".toList) :=
    Position.positionsFit_of_byteLength (by decide)
  obtain ⟨o, o', hscan, hscan', hdeclarations, hmetrics⟩ :=
    scan_withReturns Limits.development {} "int x\n= 1;\n// \x7d\n\tvoid f()\n\x7b\x7d" fit
  refine ⟨fit, o, o', hscan, hscan', ?_, hdeclarations, hmetrics⟩
  rw [scan_eq_ok hscan']
  cbv

end Scan

end CInventory
