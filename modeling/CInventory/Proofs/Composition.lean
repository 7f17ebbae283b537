import Mathlib
import CInventory.Proofs.Segmentation

/-!
# Joined sources

A line feed separates: when no construct at the end of one source is left open, a second source
behind a line feed is scanned as if it stood alone, only further down. Blanks are no part of
this: the run at the end of the first source goes on into the second, so the statement is about
the segments that are not blanks.
-/

namespace CInventory

def Span.shift (bytes lines : Nat) (s : Span) : Span :=
  ⟨s.start.shift bytes lines, s.stop.shift bytes lines⟩

/-- The same declaration with `bytes` bytes and `lines` lines put in front of its source. -/
def Declaration.shift (bytes lines : Nat) (d : Declaration) : Declaration :=
  { d with span := Span.shift bytes lines d.span }

namespace Scan

namespace Segment

/-- Blanks leave no trace in what a scan reports. -/
def isVisible : Segment → Bool
  | .blank _ => false
  | _ => true

/-- A complete segment stands where it did when a line feed and any text follow. -/
theorem Stands.extend {s : Segment} {rest : List Char} (stands : s.Stands rest)
    (visible : s.isVisible = true) (complete : s.incomplete? = none) (more : List Char) :
    s.Stands (rest ++ '\n' :: more) := by
  have hstop : ∀ p : Char → Bool, p '\n' = false →
      ∀ c, ('\n' :: more).head? = some c → p c = false := by
    intro p hp c hc
    cases hc
    exact hp
  cases stands with
  | blank some_text run => simp [isVisible] at visible
  | lineComment run => exact .lineComment (run.extend (hstop _ rfl))
  | closedComment first => exact .closedComment first
  | openComment never => simp [incomplete?] at complete
  | constantLine boundary line ends => exact .constantLine boundary line (ends.extend more)
  | variableLine front sort line ends => exact .variableLine front sort line (ends.extend more)
  | functionBody front inside => exact .functionBody front inside
  | word lead run plain untyped => exact .word lead (run.extend (hstop _ rfl)) plain untyped
  | other solid unled uncommented =>
      refine .other solid unled ?_
      intro hslash
      obtain ⟨hline, hblock⟩ := uncommented hslash
      cases rest with
      | nil => simp
      | cons c rest => exact ⟨hline, hblock⟩
  | truncated front => simp [incomplete?] at complete
  | unclosed front held => simp [incomplete?] at complete

end Segment

/-! ## The visible segments -/

def visible (p : Position) (cs : List Char) : List Placed :=
  (place p (segments cs)).filter (·.segment.isVisible)

@[simp] theorem visible_nil (p : Position) : visible p [] = [] := by
  simp [visible]

theorem visible_of_stands {s : Segment} {rest : List Char} (p : Position)
    (stands : s.Stands rest) (shown : s.isVisible = true) :
    visible p (s.text ++ rest) = ⟨s, ⟨p, p.walk s.text⟩⟩ :: visible (p.walk s.text) rest := by
  rw [visible, Segment.segments_of_stands stands, place_cons,
    List.filter_cons_of_pos (by simpa using shown), visible]

private theorem visible_run {text rest : List Char} (p : Position)
    (run : MaximalRun Text.isAsciiBlank text rest) :
    visible p (text ++ rest) = visible (p.walk text) rest := by
  cases text with
  | nil => simp
  | cons c text =>
      have stands : (Segment.blank (c :: text)).Stands rest := .blank (by simp) run
      have hsegments := Segment.segments_of_stands stands
      rw [Segment.text] at hsegments
      rw [visible, hsegments, place_cons, List.filter_cons_of_neg (by simp [Segment.isVisible]),
        visible, Segment.text]

/-- Blanks move what follows and change nothing else. -/
theorem visible_blanks {text : List Char} (p : Position) (cs : List Char)
    (blank : ∀ c ∈ text, Text.isAsciiBlank c = true) :
    visible p (text ++ cs) = visible (p.walk text) cs := by
  -- The blanks at the front of `cs` belong to the same run as `text`.
  have run := MaximalRun.of_split Text.isAsciiBlank cs
  have hsplit := List.takeWhile_append_dropWhile (p := Text.isAsciiBlank) (l := cs)
  have hwhole : MaximalRun Text.isAsciiBlank (text ++ cs.takeWhile Text.isAsciiBlank)
      (cs.dropWhile Text.isAsciiBlank) := by
    refine ⟨?_, run.stop⟩
    intro c hc
    rcases List.mem_append.mp hc with hc | hc
    · exact blank c hc
    · exact run.inside c hc
  calc
    visible p (text ++ cs)
        = visible p (text ++ cs.takeWhile Text.isAsciiBlank ++
            cs.dropWhile Text.isAsciiBlank) := by rw [List.append_assoc, hsplit]
    _ = visible (p.walk (text ++ cs.takeWhile Text.isAsciiBlank))
          (cs.dropWhile Text.isAsciiBlank) := visible_run p hwhole
    _ = visible ((p.walk text).walk (cs.takeWhile Text.isAsciiBlank))
          (cs.dropWhile Text.isAsciiBlank) := by rw [Position.walk_append]
    _ = visible (p.walk text) (cs.takeWhile Text.isAsciiBlank ++
          cs.dropWhile Text.isAsciiBlank) := (visible_run _ run).symm
    _ = visible (p.walk text) cs := by rw [hsplit]

theorem visible_lineFeed (p : Position) (cs : List Char) :
    visible p ('\n' :: cs) = visible (p.walk ['\n']) cs := by
  have blank : ∀ c ∈ ['\n'], Text.isAsciiBlank c = true := by
    intro c hc
    rw [List.mem_singleton.mp hc]
    decide
  exact visible_blanks p cs blank

theorem visible_append_lineFeed {cs : List Char} {parts : List Segment} (split : Splits cs parts)
    (complete : ∀ s ∈ parts, s.incomplete? = none) (p : Position) (more : List Char) :
    visible p (cs ++ '\n' :: more) =
      visible p cs ++ visible (p.walk (cs ++ ['\n'])) more := by
  induction split generalizing p with
  | nil =>
      rw [List.nil_append, visible_nil]
      exact visible_lineFeed p more
  | @cons s rest parts stands split ih =>
      have hrest := ih (fun t ht => complete t (List.mem_cons_of_mem s ht)) (p.walk s.text)
      have hs : s.incomplete? = none := complete s List.mem_cons_self
      rw [List.append_assoc, List.append_assoc, Position.walk_append]
      cases hv : s.isVisible with
      | true =>
          rw [visible_of_stands p (stands.extend hv hs more) hv, visible_of_stands p stands hv,
            hrest, List.cons_append]
      | false =>
          -- The run of blanks may grow past the line feed, so it is dropped on both sides.
          have run : MaximalRun Text.isAsciiBlank s.text rest := by
            cases stands with
            | blank some_text run => exact run
            | _ => simp [Segment.isVisible] at hv
          rw [visible_blanks p _ run.inside, visible_blanks p _ run.inside, hrest]

/-! ## Outcomes from visible segments -/

theorem tally_filter_isVisible (parts : List Segment) :
    Metrics.tally (parts.filter Segment.isVisible) = Metrics.tally parts := by
  induction parts with
  | nil => rfl
  | cons s parts ih =>
      have hcons : Metrics.tally (s :: parts) = Metrics.tally [s] + Metrics.tally parts :=
        Metrics.tally_append [s] parts
      cases hv : s.isVisible with
      | true =>
          rw [List.filter_cons_of_pos hv, hcons, ← ih]
          exact Metrics.tally_append [s] _
      | false =>
          have hnone : Metrics.tally [s] = {} := by
            cases s with
            | blank text => rfl
            | _ => simp [Segment.isVisible] at hv
          rw [List.filter_cons_of_neg (by simp [hv]), hcons, ih, hnone]
          simp [Metrics.add_def]

theorem declarations_eq_visible (limits : Limits) (prefs : ScanPreferences) (source : String) :
    (outcome limits prefs source).declarations =
      (visible .start source.toList).filterMap Placed.declaration? := by
  have hblank : (fun placed : Placed =>
      if placed.segment.isVisible = true then placed.declaration? else none) =
        Placed.declaration? := by
    funext ⟨s, span⟩
    cases s <;> rfl
  rw [visible, List.filterMap_filter, hblank]
  rfl

theorem map_segment_visible (p : Position) (cs : List Char) :
    (visible p cs).map Placed.segment = (segments cs).filter Segment.isVisible := by
  have hplaced := congrArg (List.filter Segment.isVisible) (map_segment_place p (segments cs))
  rw [List.filter_map] at hplaced
  exact hplaced

theorem metrics_eq_visible (limits : Limits) (prefs : ScanPreferences) (source : String) :
    (outcome limits prefs source).metrics =
      Metrics.tally ((visible .start source.toList).map Placed.segment) := by
  rw [metrics_outcome, map_segment_visible, tally_filter_isVisible]

theorem complete_of_incomplete_eq_zero {parts : List Segment}
    (h : (Metrics.tally parts).incomplete = 0) : ∀ s ∈ parts, s.incomplete? = none := by
  simp only [Metrics.incomplete, Metrics.tally, Nat.add_eq_zero_iff, List.countP_eq_zero] at h
  obtain ⟨⟨hcomment, htruncated⟩, hbody⟩ := h
  intro s hs
  cases s with
  | blockComment text closed =>
      cases closed with
      | true => rfl
      | false => exact absurd rfl (hcomment _ hs)
  | truncated lead text => exact absurd rfl (htruncated _ hs)
  | unclosed lead text => exact absurd rfl (hbody _ hs)
  | _ => rfl

/-! ## Shifted outcomes -/

def Placed.shift (bytes lines : Nat) (placed : Placed) : Placed :=
  ⟨placed.segment, Span.shift bytes lines placed.span⟩

private theorem place_shift (p : Position) (bytes lines : Nat) (parts : List Segment) :
    place (p.shift bytes lines) parts = (place p parts).map (Placed.shift bytes lines) := by
  induction parts generalizing p with
  | nil => rfl
  | cons s parts ih =>
      rw [place_cons, place_cons, List.map_cons, Position.walk_shift, ih]
      rfl

theorem visible_shift (p : Position) (bytes lines : Nat) (cs : List Char) :
    visible (p.shift bytes lines) cs = (visible p cs).map (Placed.shift bytes lines) := by
  rw [visible, place_shift, List.filter_map]
  rfl

theorem declaration?_shift (bytes lines : Nat) (placed : Placed) :
    (placed.shift bytes lines).declaration? =
      placed.declaration?.map (Declaration.shift bytes lines) := by
  obtain ⟨s, span⟩ := placed
  cases s <;> rfl

/-- Scanning is compositional at line feeds. -/
theorem scan_append_lineFeed (limits : Limits) (prefs : ScanPreferences) (a b : String)
    {first : Outcome} (fit : PositionsFit (a ++ "\n" ++ b).toList)
    (scanned : scan limits prefs a = .ok first) (complete : first.metrics.incomplete = 0) :
    ∃ second joined,
      scan limits prefs b = .ok second ∧
      scan limits prefs (a ++ "\n" ++ b) = .ok joined ∧
      joined.declarations = first.declarations ++
        second.declarations.map
          (Declaration.shift (a.utf8ByteSize + 1) (a.toList.count '\n' + 1)) ∧
      joined.metrics = first.metrics + second.metrics := by
  have htext : (a ++ "\n" ++ b).toList = a.toList ++ '\n' :: b.toList := by simp
  rw [htext] at fit
  obtain rfl := scan_eq_ok scanned
  have hcomplete : ∀ s ∈ segments a.toList, s.incomplete? = none := by
    rw [metrics_outcome] at complete
    exact complete_of_incomplete_eq_zero complete
  have hvisible : visible .start (a ++ "\n" ++ b).toList = visible .start a.toList ++
      (visible .start b.toList).map
        (Placed.shift (a.utf8ByteSize + 1) (a.toList.count '\n' + 1)) := by
    rw [htext, visible_append_lineFeed (splits_segments a.toList) hcomplete,
      Position.walk_lineFeed, visible_shift, Text.byteLength_toList]
  refine ⟨outcome limits prefs b, outcome limits prefs (a ++ "\n" ++ b), ?_, ?_, ?_, ?_⟩
  · exact scan_of_fits limits prefs fit.of_lineFeed
  · exact scan_of_fits limits prefs (by rwa [htext])
  · have hshift : (Placed.declaration? ∘
        Placed.shift (a.utf8ByteSize + 1) (a.toList.count '\n' + 1)) = fun placed =>
          placed.declaration?.map
            (Declaration.shift (a.utf8ByteSize + 1) (a.toList.count '\n' + 1)) := by
      funext placed
      exact declaration?_shift _ _ placed
    rw [declarations_eq_visible, declarations_eq_visible, declarations_eq_visible, hvisible,
      List.filterMap_append, List.filterMap_map, hshift, List.map_filterMap]
  · have hsegment : Placed.segment ∘
        Placed.shift (a.utf8ByteSize + 1) (a.toList.count '\n' + 1) = Placed.segment := rfl
    rw [metrics_eq_visible, metrics_eq_visible, metrics_eq_visible, hvisible, List.map_append,
      List.map_map, hsegment, Metrics.tally_append]

/-- A slash at the end of one source and one at the start of the next make no comment. -/
theorem scan_append_lineFeed_slashes :
    PositionsFit ("void f()\x7b\x7d/" ++ "\n" ++ "/int c;").toList ∧
    ∃ first second joined,
      scan Limits.development {} "void f()\x7b\x7d/" = .ok first ∧
      first.metrics.incomplete = 0 ∧
      scan Limits.development {} "/int c;" = .ok second ∧
      scan Limits.development {} ("void f()\x7b\x7d/" ++ "\n" ++ "/int c;") = .ok joined ∧
      joined.declarations = first.declarations ++
        second.declarations.map (Declaration.shift 12 1) ∧
      joined.metrics = first.metrics + second.metrics := by
  have fit : PositionsFit ("void f()\x7b\x7d/" ++ "\n" ++ "/int c;").toList :=
    Position.positionsFit_of_byteLength (by decide)
  have fitFirst : PositionsFit "void f()\x7b\x7d/".toList :=
    Position.positionsFit_of_byteLength (by decide)
  have scanned := scan_of_fits Limits.development {} fitFirst
  have complete :
      (outcome Limits.development {} "void f()\x7b\x7d/").metrics.incomplete = 0 := by cbv
  obtain ⟨second, joined, hsecond, hjoined, hdeclarations, hmetrics⟩ :=
    scan_append_lineFeed Limits.development {} "void f()\x7b\x7d/" "/int c;" fit scanned complete
  exact ⟨fit, _, second, joined, scanned, complete, hsecond, hjoined, hdeclarations, hmetrics⟩

end Scan

end CInventory
