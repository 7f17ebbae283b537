import Mathlib
import CInventory.Proofs.Composition

/-!
# Comments between declarations

What stands in a comment does not show: a comment on a line of its own between two sources counts
as one comment, and the sources are scanned as if each stood alone. A block comment ends with the
first closer behind its opener, so its content may begin with a slash or end with a star; the
second source then goes on in the middle of a line.
-/

namespace CInventory.Scan

/-- A star at the end of a text without closers makes none. -/
theorem not_closer_infix_concat {body : List Char} (h : ¬ closer <:+: body) :
    ¬ closer <:+: body ++ ['*'] := by
  rw [List.infix_concat_iff, not_or]
  refine ⟨?_, h⟩
  rintro ⟨front, hfront⟩
  have hlast := congrArg List.getLast? hfront
  simp [closer] at hlast

/-! ## Visible segments without their places -/

theorem filter_segments_lineFeed (cs : List Char) :
    (segments ('\n' :: cs)).filter Segment.isVisible = (segments cs).filter Segment.isVisible := by
  have hblank := congrArg (List.map Placed.segment) (visible_lineFeed .start cs)
  simpa only [map_segment_visible] using hblank

/-- A visible segment on a new line stands between the segments of what is around it. -/
theorem filter_segments_between {a b : List Char} {s : Segment}
    (complete : ∀ t ∈ segments a, t.incomplete? = none) (stands : s.Stands b)
    (shown : s.isVisible = true) :
    (segments (a ++ '\n' :: (s.text ++ b))).filter Segment.isVisible =
      (segments a).filter Segment.isVisible ++ s :: (segments b).filter Segment.isVisible := by
  have hjoined := visible_append_lineFeed (splits_segments a) complete .start (s.text ++ b)
  rw [visible_of_stands _ stands shown] at hjoined
  have hsegments := congrArg (List.map Placed.segment) hjoined
  rw [List.map_append, List.map_cons] at hsegments
  simpa only [map_segment_visible] using hsegments

/-! ## Outcomes around a comment -/

theorem Metrics.add_comm (m n : Metrics) : m + n = n + m := by
  simp [Metrics.add_def, Nat.add_comm]

/-- A source that is scanned like two others one after the other, with `extra` counted besides. -/
structure Joins (limits : Limits) (prefs : ScanPreferences) (a b joined : String)
    (extra : Metrics) : Prop where
  declared : (outcome limits prefs joined).declarations.map (fun d => (d.kind, d.text)) =
    (outcome limits prefs a).declarations.map (fun d => (d.kind, d.text)) ++
      (outcome limits prefs b).declarations.map (fun d => (d.kind, d.text))
  metrics : (outcome limits prefs joined).metrics =
    (outcome limits prefs a).metrics + (outcome limits prefs b).metrics + extra
  scanned : PositionsFit joined.toList →
    scan limits prefs a = .ok (outcome limits prefs a) ∧
    scan limits prefs b = .ok (outcome limits prefs b) ∧
    scan limits prefs joined = .ok (outcome limits prefs joined)
  overflows : ¬ PositionsFit joined.toList → scan limits prefs joined = .error .overflow

theorem declared_eq_visible (limits : Limits) (prefs : ScanPreferences) (source : String) :
    (outcome limits prefs source).declarations.map (fun d => (d.kind, d.text)) =
      ((segments source.toList).filter Segment.isVisible).filterMap Segment.declared? := by
  have hblank : (fun s : Segment => if s.isVisible = true then s.declared? else none) =
      Segment.declared? := by
    funext s
    cases s <;> rfl
  rw [List.filterMap_filter, hblank]
  exact declarations_place .start (segments source.toList)

theorem joins_of_segments (limits : Limits) (prefs : ScanPreferences) {a b joined : String}
    {s : Segment} (hfront : a.toList <+: joined.toList) (hback : b.toList <:+ joined.toList)
    (hsegments : (segments joined.toList).filter Segment.isVisible =
      (segments a.toList).filter Segment.isVisible ++
        s :: (segments b.toList).filter Segment.isVisible)
    (silent : s.declared? = none) :
    Joins limits prefs a b joined (Metrics.tally [s]) where
  declared := by
    simp only [declared_eq_visible, hsegments, List.filterMap_append,
      List.filterMap_cons_none silent]
  metrics := by
    have hcons := Metrics.tally_append [s] ((segments b.toList).filter Segment.isVisible)
    rw [List.singleton_append] at hcons
    rw [metrics_outcome, metrics_outcome, metrics_outcome, ← tally_filter_isVisible, hsegments,
      Metrics.tally_append, hcons, tally_filter_isVisible, tally_filter_isVisible,
      Metrics.add_comm (Metrics.tally [s]), Metrics.add_assoc]
  scanned := by
    intro fit
    obtain ⟨behind, hbehind⟩ := hfront
    obtain ⟨before, hbefore⟩ := hback
    have hfirst : PositionsFit a.toList := (hbehind.symm ▸ fit).of_append
    have hsecond : PositionsFit b.toList := (hbefore.symm ▸ fit).of_append_right
    exact ⟨scan_of_fits limits prefs hfirst, scan_of_fits limits prefs hsecond,
      scan_of_fits limits prefs fit⟩
  overflows := scan_of_not_fits limits prefs

/-- The content of a comment between two sources shows nowhere: the declarations are those of the
one source and then those of the other, and the comment is counted once. -/
theorem comments_opaque (limits : Limits) (prefs : ScanPreferences) (a b : String)
    (complete : (outcome limits prefs a).metrics.incomplete = 0) :
    (∀ c : String, ¬ "*/".toList <:+: c.toList →
      Joins limits prefs a b (a ++ "\n/*" ++ c ++ "*/" ++ b) { blockComments := 1 }) ∧
    (∀ d : String, '\n' ∉ d.toList →
      Joins limits prefs a b (a ++ "\n//" ++ d ++ "\n" ++ b) { lineComments := 1 }) := by
  have hcomplete : ∀ s ∈ segments a.toList, s.incomplete? = none := by
    rw [metrics_outcome] at complete
    exact complete_of_incomplete_eq_zero complete
  constructor
  · intro c hc
    have stands : (Segment.blockComment ('/' :: '*' :: (c.toList ++ closer)) true).Stands
        b.toList := .closedComment (not_closer_infix_concat hc)
    have hjoined : (a ++ "\n/*" ++ c ++ "*/" ++ b).toList =
        a.toList ++ '\n' :: ('/' :: '*' :: (c.toList ++ closer) ++ b.toList) := by
      simp [closer]
    have hsegments := filter_segments_between hcomplete stands rfl
    rw [Segment.text, ← hjoined] at hsegments
    exact joins_of_segments limits prefs (by simp) ⟨_, String.toList_append.symm⟩ hsegments rfl
  · intro d hd
    have run : MaximalRun isNotLineFeed d.toList ('\n' :: b.toList) := by
      refine ⟨isNotLineFeed_iff_not_mem.mpr hd, ?_⟩
      intro c hc
      cases hc
      rfl
    have stands : (Segment.lineComment ('/' :: '/' :: d.toList)).Stands ('\n' :: b.toList) :=
      .lineComment run
    have hjoined : (a ++ "\n//" ++ d ++ "\n" ++ b).toList =
        a.toList ++ '\n' :: ('/' :: '/' :: d.toList ++ '\n' :: b.toList) := by
      simp
    have hsegments := filter_segments_between hcomplete stands rfl
    rw [Segment.text, ← hjoined, filter_segments_lineFeed] at hsegments
    exact joins_of_segments limits prefs (by simp) ⟨_, String.toList_append.symm⟩ hsegments rfl

/-- A comment that begins with a slash, ends with a star and holds a quote, braces and what looks
like declarations, with more declarations right behind it. -/
theorem comments_opaque_edges :
    (outcome Limits.development {} "void f() \x7b\x7d //").metrics.incomplete = 0 ∧
    ¬ "*/".toList <:+: "/ int x; \x7b \" // *".toList ∧
    '\n' ∉ "/ int x; \x7b \" // *".toList ∧
    Joins Limits.development {} "void f() \x7b\x7d //" "int y;"
      ("void f() \x7b\x7d //" ++ "\n/*" ++ "/ int x; \x7b \" // *" ++ "*/" ++ "int y;")
      { blockComments := 1 } ∧
    Joins Limits.development {} "void f() \x7b\x7d //" "int y;"
      ("void f() \x7b\x7d //" ++ "\n//" ++ "/ int x; \x7b \" // *" ++ "\n" ++ "int y;")
      { lineComments := 1 } := by
  have complete :
      (outcome Limits.development {} "void f() \x7b\x7d //").metrics.incomplete = 0 := by cbv
  have hopaque := comments_opaque Limits.development {} "void f() \x7b\x7d //" "int y;" complete
  have hcloser : ¬ "*/".toList <:+: "/ int x; \x7b \" // *".toList := by decide
  have hline : '\n' ∉ "/ int x; \x7b \" // *".toList := by decide
  exact ⟨complete, hcloser, hline, hopaque.1 _ hcloser, hopaque.2 _ hline⟩

end CInventory.Scan
