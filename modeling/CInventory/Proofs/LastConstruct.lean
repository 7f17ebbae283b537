import Mathlib
import CInventory.Proofs.Placement
import CInventory.Proofs.Catalogers

/-!
# The incomplete construct at the end

An incomplete construct runs to the end of its source: there is at most one, and nothing follows
it. What stands in front of it splits into the same segments when the source ends there. So a
scan has at most one incomplete construct to warn of, and only a limit of zero keeps it back.
-/

namespace CInventory.Scan

open Diagnostic

namespace MaximalRun

/-- A run that is maximal in a longer text is maximal in front of less. -/
theorem cut {p : Char → Bool} {body rest tail : List Char}
    (run : MaximalRun p body (rest ++ tail)) : MaximalRun p body rest := by
  refine ⟨run.inside, ?_⟩
  intro c hc
  apply run.stop
  rw [List.head?_append, hc]
  rfl

end MaximalRun

theorem EndsLine.cut {text rest tail : List Char} (ends : EndsLine text (rest ++ tail)) :
    EndsLine text rest := by
  refine ⟨ends.solid, ?_⟩
  intro c hc
  apply ends.blanks
  exact (takeWhile_append_isPrefix isNotLineFeed rest tail).subset hc

namespace Segment

def isBlockComment : Segment → Bool
  | .blockComment _ _ => true
  | _ => false

variable {s : Segment} {rest tail : List Char}

theorem Stands.rest_eq_nil (stands : s.Stands rest) (incomplete : s.incomplete? ≠ none) :
    rest = [] := by
  cases stands with
  | openComment never => rfl
  | truncated front => rfl
  | unclosed front held => rfl
  | _ => exact absurd rfl incomplete

/-- What a complete segment asks of the text behind it, it asks of the next line feed and the next
character at most: it still stands when the text ends sooner. -/
theorem Stands.cut (stands : s.Stands (rest ++ tail)) (complete : s.incomplete? = none) :
    s.Stands rest := by
  generalize hwhole : rest ++ tail = whole at stands
  cases stands with
  | blank some_text run => exact .blank some_text (hwhole ▸ run).cut
  | lineComment run => exact .lineComment (hwhole ▸ run).cut
  | closedComment first => exact .closedComment first
  | constantLine boundary line ends => exact .constantLine boundary line (hwhole ▸ ends).cut
  | variableLine front sort line ends => exact .variableLine front sort line (hwhole ▸ ends).cut
  | functionBody front inside => exact .functionBody front inside
  | word lead run plain untyped => exact .word lead (hwhole ▸ run).cut plain untyped
  | other solid unled uncommented =>
      refine .other solid unled ?_
      intro hslash
      have hnext := uncommented hslash
      rw [← hwhole] at hnext
      cases rest with
      | nil => simp
      | cons c rest => exact hnext
  | openComment never => simp [incomplete?] at complete
  | truncated front => simp [incomplete?] at complete
  | unclosed front held => simp [incomplete?] at complete

end Segment

/-! ## The split of a source at its incomplete construct -/

/-- The complete segments at the front of a text are the segments of their own texts. -/
theorem Splits.cut {cs : List Char} {before after : List Segment}
    (split : Splits cs (before ++ after)) (complete : ∀ s ∈ before, s.incomplete? = none) :
    Splits (before.flatMap Segment.text) before := by
  induction before generalizing cs with
  | nil => exact .nil
  | cons s before ih =>
      cases split with
      | cons stands split =>
          have hrest := ih split fun t ht => complete t (List.mem_cons_of_mem s ht)
          have hs : s.incomplete? = none := complete s List.mem_cons_self
          have hbehind : s.Stands (before.flatMap Segment.text ++ after.flatMap Segment.text) := by
            rw [← List.flatMap_append]
            exact split.flatMap_text.symm ▸ stands
          exact .cons (hbehind.cut hs) hrest

/-- Either all segments are complete, or all but the last one. -/
theorem Splits.complete_or_last {cs : List Char} {parts : List Segment} (split : Splits cs parts) :
    (∀ s ∈ parts, s.incomplete? = none) ∨
      ∃ before last, parts = before ++ [last] ∧ (∀ s ∈ before, s.incomplete? = none) ∧
        last.incomplete? ≠ none := by
  induction split with
  | nil => exact .inl (by simp)
  | @cons s rest parts stands split ih =>
      by_cases hs : s.incomplete? = none
      · rcases ih with hall | ⟨before, last, rfl, hbefore, hlast⟩
        · exact .inl (List.forall_mem_cons.mpr ⟨hs, hall⟩)
        · exact .inr ⟨s :: before, last, rfl, List.forall_mem_cons.mpr ⟨hs, hbefore⟩, hlast⟩
      · have hrest : rest = [] := stands.rest_eq_nil hs
        subst hrest
        have hparts : parts = [] := split.eq_segments.trans segments_nil
        subst hparts
        exact .inr ⟨[], s, rfl, by simp, hs⟩

/-! ## Counting incomplete constructs -/

namespace Metrics

private theorem incomplete_add (m n : Metrics) :
    (m + n).incomplete = m.incomplete + n.incomplete := by
  simp only [add_def, incomplete]
  omega

private theorem incomplete_tally_singleton (s : Segment) :
    (tally [s]).incomplete = if s.incomplete?.isSome then 1 else 0 := by
  cases s with
  | blockComment text closed => cases closed <;> rfl
  | _ => rfl

private theorem incomplete_tally_of_complete {parts : List Segment}
    (complete : ∀ s ∈ parts, s.incomplete? = none) : (tally parts).incomplete = 0 := by
  induction parts with
  | nil => rfl
  | cons s parts ih =>
      obtain ⟨hs, hparts⟩ := List.forall_mem_cons.mp complete
      have hcons : tally (s :: parts) = tally [s] + tally parts := tally_append [s] parts
      rw [hcons, incomplete_add, incomplete_tally_singleton, hs, ih hparts]
      rfl

/-- All that an incomplete construct adds to the counts of what stands in front of it. -/
theorem add_tally_incomplete (m : Metrics) {s : Segment} (incomplete : s.incomplete? ≠ none) :
    m + tally [s] =
      { m with
        blockComments := m.blockComments + if s.isBlockComment then 1 else 0
        unclosedComments := (m + tally [s]).unclosedComments
        truncated := (m + tally [s]).truncated
        unclosedBodies := (m + tally [s]).unclosedBodies } := by
  cases s with
  | blockComment text closed => cases closed <;> simp [tally, add_def, Segment.isBlockComment]
  | truncated lead text => simp [tally, add_def, Segment.isBlockComment]
  | unclosed lead text => simp [tally, add_def, Segment.isBlockComment]
  | _ => exact absurd rfl incomplete

end Metrics

/-- The segments of a source with an incomplete construct: the construct is the last one, and the
others are the segments of what stands in front of it. -/
theorem segments_of_incomplete {cs : List Char} (h : (Metrics.tally (segments cs)).incomplete ≠ 0) :
    ∃ front last, cs = front ++ last.text ∧ segments cs = segments front ++ [last] ∧
      last.incomplete? ≠ none ∧ (Metrics.tally (segments front)).incomplete = 0 := by
  have split := splits_segments cs
  rcases split.complete_or_last with hall | ⟨before, last, hparts, hbefore, hlast⟩
  · exact absurd (Metrics.incomplete_tally_of_complete hall) h
  · rw [hparts] at split
    have hfront : before = segments (before.flatMap Segment.text) := (split.cut hbefore).eq_segments
    refine ⟨before.flatMap Segment.text, last, ?_, ?_, hlast, ?_⟩
    · rw [← split.flatMap_text]
      simp
    · rw [hparts, ← hfront]
    · rw [← hfront]
      exact Metrics.incomplete_tally_of_complete hbefore

theorem place_append (p : Position) (xs ys : List Segment) :
    place p (xs ++ ys) = place p xs ++ place (p.walk (xs.flatMap Segment.text)) ys := by
  induction xs generalizing p with
  | nil => rfl
  | cons s xs ih =>
      rw [List.cons_append, place_cons, place_cons, ih, List.flatMap_cons, Position.walk_append,
        List.cons_append]

/-- An incomplete construct declares nothing, and moves nothing that stands in front of it. -/
theorem declarations_of_incomplete (limits : Limits) (prefs : ScanPreferences) {source : String}
    {front : List Char} {last : Segment}
    (hparts : segments source.toList = segments front ++ [last])
    (incomplete : last.incomplete? ≠ none) :
    (outcome limits prefs source).declarations =
      (outcome limits prefs (String.ofList front)).declarations := by
  have hnone : ∀ span, Placed.declaration? ⟨last, span⟩ = none := by
    intro span
    cases last with
    | declaration kind text => exact absurd rfl incomplete
    | _ => rfl
  simp only [outcome, report]
  rw [hparts, String.toList_ofList, place_append, List.filterMap_append, place_cons, place_nil,
    List.filterMap_cons_none (hnone _), List.filterMap_nil, List.append_nil]

/-! ## Warnings -/

def incompleteCodes : List String :=
  [Code.unclosedComment, Code.truncatedDeclaration, Code.unclosedBody]

def warnsIncomplete (e : Event) : Bool := e.isWarning && incompleteCodes.contains e.code

private theorem code_mem_of_incomplete {s : Segment} {found : Incomplete}
    (h : s.incomplete? = some found) : found.code ∈ incompleteCodes := by
  unfold Segment.incomplete? at h
  split at h <;> cases h <;> simp [incompleteCodes]

private theorem warnsIncomplete_incompleteEvent (limits : Limits) {prefs : ScanPreferences}
    (warned : Nat)
    {found : Incomplete} (span : Span) (report : prefs.reportIncomplete = true)
    (known : found.code ∈ incompleteCodes) :
    warnsIncomplete (incompleteEvent limits prefs warned found span) =
        decide (warned < limits.maxReportedSkipped) ∧
      (incompleteEvent limits prefs warned found span).isWarning =
        decide (warned < limits.maxReportedSkipped) := by
  unfold incompleteEvent
  by_cases hroom : warned < limits.maxReportedSkipped
  · cases prefs.positions <;>
      simp [report, hroom, warnsIncomplete, Event.isWarning, Event.warning, Event.make,
        Event.withContext, Event.withSpan, known]
  · simp [report, hroom, warnsIncomplete, Event.isWarning, Event.debug, Event.make,
      Event.withContext]

private theorem not_warnsIncomplete_declarationEvent (limits : Limits) (kind : Kind) (span : Span) :
    warnsIncomplete (declarationEvent limits kind span) = false := rfl

theorem segmentEvents_of_incomplete (limits : Limits) (prefs : ScanPreferences)
    (done : Array Event) (warned : Nat) {s : Segment} {found : Incomplete} (span : Span)
    (placed : List Placed) (h : s.incomplete? = some found) :
    segmentEvents limits prefs done warned (⟨s, span⟩ :: placed) =
      segmentEvents limits prefs (done.push (incompleteEvent limits prefs warned found span))
        (if (incompleteEvent limits prefs warned found span).isWarning then warned + 1 else warned)
        placed := by
  cases s with
  | blockComment text closed =>
      cases closed with
      | true => cases h
      | false => cases h; rfl
  | truncated lead text => cases h; rfl
  | unclosed lead text => cases h; rfl
  | _ => cases h

/-- Every incomplete construct is warned of until the limit is reached. -/
theorem countP_segmentEvents (limits : Limits) {prefs : ScanPreferences}
    (report : prefs.reportIncomplete = true) (done : Array Event) (warned : Nat)
    (placed : List Placed) :
    (segmentEvents limits prefs done warned placed).toList.countP warnsIncomplete =
      done.toList.countP warnsIncomplete +
        min (Metrics.tally (placed.map Placed.segment)).incomplete
          (limits.maxReportedSkipped - warned) := by
  induction placed generalizing done warned with
  | nil => simp [segmentEvents, Metrics.tally, Metrics.incomplete]
  | cons p placed ih =>
      obtain ⟨s, span⟩ := p
      have hcons : Metrics.tally (s :: placed.map Placed.segment) =
          Metrics.tally [s] + Metrics.tally (placed.map Placed.segment) :=
        Metrics.tally_append [s] _
      rw [List.map_cons, hcons, Metrics.incomplete_add, Metrics.incomplete_tally_singleton]
      cases hfound : s.incomplete? with
      | none =>
          rw [Option.isSome_none, if_neg Bool.false_ne_true, Nat.zero_add]
          cases s with
          | declaration kind text =>
              rw [segmentEvents, ih, Array.toList_push, List.countP_append]
              simp [not_warnsIncomplete_declarationEvent]
          | blockComment text closed =>
              cases closed with
              | true => exact ih done warned
              | false => cases hfound
          | truncated lead text => cases hfound
          | unclosed lead text => cases hfound
          | _ => exact ih done warned
      | some found =>
          obtain ⟨hcounts, hwarns⟩ := warnsIncomplete_incompleteEvent limits warned span report
            (code_mem_of_incomplete hfound)
          rw [segmentEvents_of_incomplete limits prefs done warned span placed hfound, ih,
            Array.toList_push, List.countP_append, List.countP_singleton, hcounts, hwarns,
            Option.isSome_some, if_pos rfl]
          by_cases hroom : warned < limits.maxReportedSkipped
          · simp only [hroom, decide_true, if_true]
            omega
          · simp only [hroom, decide_false, Bool.false_eq_true, if_false]
            omega

private theorem countP_closingEvents (limits : Limits) (m : Metrics) :
    (closingEvents limits m).countP warnsIncomplete = 0 := by
  rw [List.countP_eq_zero]
  intro e he
  unfold closingEvents at he
  split at he
  · rcases List.mem_pair.mp he with rfl | rfl
    · exact Bool.false_ne_true
    · exact (by decide : ¬ incompleteCodes.contains Code.largeCatalog = true)
  · rw [List.mem_singleton.mp he]
    exact Bool.false_ne_true

theorem countP_events_outcome (limits : Limits) {prefs : ScanPreferences}
    (report : prefs.reportIncomplete = true) (source : String) :
    (outcome limits prefs source).events.countP warnsIncomplete =
      min (outcome limits prefs source).metrics.incomplete limits.maxReportedSkipped := by
  have hmetrics := metrics_outcome limits prefs source
  rw [hmetrics]
  unfold outcome Scan.report
  rw [List.countP_append, countP_closingEvents, countP_segmentEvents limits report,
    map_segment_place]
  simp

/-- A scan meets at most one incomplete construct, and it is the last thing it meets: it reaches
from some place to the end. A source that ends at this place gives the same declarations, no
incomplete construct, and the same counts but for those of incomplete constructs and for the
comment, if the construct is one. Where warnings are wanted, as many are given as there are
incomplete constructs, by a cataloger that was used before too; no limit above zero keeps any
back. -/
theorem incomplete_construct_last (limits : Limits) (prefs : ScanPreferences) (source : String) :
    ∃ o : Outcome,
      o = outcome limits prefs source ∧
      (PositionsFit source.toList → scan limits prefs source = .ok o ∧
        ∀ (k : Cataloger) (inv : Inventory), k.prefs = prefs → ∃ last,
          k.scan limits source inv = .ok (o.metrics, last) ∧ last.events.toList = o.events) ∧
      (¬ PositionsFit source.toList → scan limits prefs source = .error .overflow) ∧
      o.metrics.incomplete ≤ 1 ∧
      (o.metrics.incomplete = 1 → ∃ (front rear : String) (last : Segment) (cut : Outcome),
        source = front ++ rear ∧
        rear.toList = last.text ∧ last.incomplete? ≠ none ∧
        segments source.toList = segments front.toList ++ [last] ∧
        cut = outcome limits prefs front ∧
        (PositionsFit source.toList → scan limits prefs front = .ok cut) ∧
        cut.declarations = o.declarations ∧
        cut.metrics.incomplete = 0 ∧
        o.metrics =
          { cut.metrics with
            blockComments := cut.metrics.blockComments + if last.isBlockComment then 1 else 0
            unclosedComments := o.metrics.unclosedComments
            truncated := o.metrics.truncated
            unclosedBodies := o.metrics.unclosedBodies }) ∧
      (prefs.reportIncomplete = true →
        o.events.countP warnsIncomplete = min o.metrics.incomplete limits.maxReportedSkipped ∧
        (0 < limits.maxReportedSkipped →
          o.events.countP warnsIncomplete = o.metrics.incomplete)) := by
  have hmetrics := metrics_outcome limits prefs source
  have hle : (outcome limits prefs source).metrics.incomplete ≤ 1 := by
    by_cases hzero : (Metrics.tally (segments source.toList)).incomplete = 0
    · rw [hmetrics, hzero]
      exact Nat.zero_le 1
    · obtain ⟨front, last, -, hparts, -, hfront⟩ := segments_of_incomplete hzero
      rw [hmetrics, hparts, Metrics.tally_append, Metrics.incomplete_add, hfront,
        Metrics.incomplete_tally_singleton]
      split <;> omega
  refine ⟨_, rfl, ?_, scan_of_not_fits limits prefs, hle, ?_, ?_⟩
  · intro fit
    refine ⟨scan_of_fits limits prefs fit, ?_⟩
    rintro k inv rfl
    obtain ⟨last, hscan, ends⟩ := k.scan_ends limits inv fit
    exact ⟨last, hscan, ends.events⟩
  · intro hone
    rw [hmetrics] at hone
    have hsome : (Metrics.tally (segments source.toList)).incomplete ≠ 0 := by omega
    obtain ⟨front, last, hsource, hparts, hlast, hfront⟩ := segments_of_incomplete hsome
    have hcut := metrics_outcome limits prefs (String.ofList front)
    rw [String.toList_ofList] at hcut
    have hwhole : (outcome limits prefs source).metrics =
        (outcome limits prefs (String.ofList front)).metrics + Metrics.tally [last] := by
      rw [hmetrics, hcut, hparts, Metrics.tally_append]
    refine ⟨String.ofList front, String.ofList last.text, last, _, ?_, String.toList_ofList, hlast,
      ?_, rfl, ?_, ?_, ?_, ?_⟩
    · rw [← String.ofList_append, ← hsource, String.ofList_toList]
    · rw [hparts, String.toList_ofList]
    · intro fit
      apply scan_of_fits
      rw [String.toList_ofList]
      exact (hsource ▸ fit).of_append
    · exact (declarations_of_incomplete limits prefs hparts hlast).symm
    · rw [hcut, hfront]
    · rw [hwhole]
      exact Metrics.add_tally_incomplete _ hlast
  · intro report
    have hcount := countP_events_outcome limits report source
    refine ⟨hcount, ?_⟩
    intro hlimit
    rw [hcount]
    omega

example : 0 < Limits.development.maxReportedSkipped := by decide

end CInventory.Scan
