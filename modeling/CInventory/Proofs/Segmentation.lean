import CInventory.Proofs.CursorRun

/-!
# The segmentation of a source

A source has exactly one segmentation in which every segment obeys its rule. A run of the cursor
places the segments of that one, and an outcome reports on it: its declarations are the declaring
segments in order, its metrics count the segments of each sort.
-/

namespace CInventory.Scan

/-- A text cut from left to right into segments, each of which obeys its rule where it stands. -/
inductive Splits : List Char → List Segment → Prop where
  | nil : Splits [] []
  | cons {s : Segment} {rest : List Char} {parts : List Segment} (stands : s.Stands rest)
      (split : Splits rest parts) : Splits (s.text ++ rest) (s :: parts)

theorem splits_segments (cs : List Char) : Splits cs (segments cs) := by
  induction h : cs.length using Nat.strongRecOn generalizing cs with
  | ind n ih =>
      subst h
      cases cs with
      | nil => rw [segments_nil]; exact .nil
      | cons c cs =>
          have hrest := ih _ (Segment.first_rest_length c cs) _ rfl
          have hcons := Splits.cons (Segment.first_stands c cs) hrest
          rw [Segment.first_append] at hcons
          rw [segments_cons]
          exact hcons

/-- There is no other segmentation. -/
theorem Splits.eq_segments {cs : List Char} {parts : List Segment} (h : Splits cs parts) :
    parts = segments cs := by
  induction h with
  | nil => simp
  | cons stands split ih => rw [Segment.segments_of_stands stands, ← ih]

theorem Splits.flatMap_text {cs : List Char} {parts : List Segment} (h : Splits cs parts) :
    parts.flatMap Segment.text = cs := by
  induction h with
  | nil => rfl
  | cons stands split ih => rw [List.flatMap_cons, ih]

/-- Each segment obeys its rule in front of all that follows it. -/
theorem Splits.stands {cs : List Char} {before after : List Segment} {s : Segment}
    (h : Splits cs (before ++ s :: after)) : s.Stands (after.flatMap Segment.text) := by
  induction before generalizing cs with
  | nil =>
      cases h with
      | cons stands split =>
          rw [split.flatMap_text]
          exact stands
  | cons t before ih =>
      cases h with
      | cons _ split => exact ih split

theorem Segment.Stands.text_ne_nil {s : Segment} {rest : List Char} (h : s.Stands rest) :
    s.text ≠ [] := by
  -- A segment without text would stand in front of itself again and again.
  intro hnil
  have hsegments := Segment.segments_of_stands h
  rw [hnil, List.nil_append] at hsegments
  have hlength := congrArg List.length hsegments
  simp at hlength

/-! ## Declarations and counts -/

def Segment.declared? : Segment → Option (Kind × String)
  | .declaration kind text => some (kind, String.ofList text)
  | _ => none

theorem declarations_place (p : Position) (parts : List Segment) :
    ((place p parts).filterMap Placed.declaration?).map (fun d => (d.kind, d.text)) =
      parts.filterMap Segment.declared? := by
  induction parts generalizing p with
  | nil => rfl
  | cons s parts ih =>
      rw [place_cons, List.filterMap_cons, List.filterMap_cons]
      cases s <;> simp [Placed.declaration?, Segment.declared?, ih]

/-- Every placed segment stands between the walks over the text in front of it and through it. -/
theorem mem_place {p : Position} {parts : List Segment} {placed : Placed}
    (h : placed ∈ place p parts) :
    ∃ before after, parts = before ++ placed.segment :: after ∧
      placed.span = ⟨p.walk (before.flatMap Segment.text),
        p.walk (before.flatMap Segment.text ++ placed.segment.text)⟩ := by
  induction parts generalizing p with
  | nil => simp at h
  | cons s parts ih =>
      rw [place_cons, List.mem_cons] at h
      rcases h with rfl | h
      · exact ⟨[], parts, rfl, by simp⟩
      · obtain ⟨before, after, hparts, hspan⟩ := ih h
        refine ⟨s :: before, after, by rw [hparts, List.cons_append], ?_⟩
        simp [hspan]

theorem mem_declarations {limits : Limits} {prefs : ScanPreferences} {source : String}
    {d : Declaration} (h : d ∈ (outcome limits prefs source).declarations) :
    ∃ before after,
      segments source.toList = before ++ .declaration d.kind d.text.toList :: after ∧
      d.span = ⟨Position.start.walk (before.flatMap Segment.text),
        Position.start.walk (before.flatMap Segment.text ++ d.text.toList)⟩ ∧
      (Segment.declaration d.kind d.text.toList).Stands (after.flatMap Segment.text) := by
  obtain ⟨⟨s, span⟩, hplaced, hdeclared⟩ := List.mem_filterMap.mp h
  obtain ⟨before, after, hparts, hspan⟩ := mem_place hplaced
  have split := splits_segments source.toList
  rw [hparts] at split
  cases s with
  | declaration kind text =>
      cases hdeclared
      refine ⟨before, after, by simpa using hparts, by simpa [Segment.text] using hspan, ?_⟩
      simpa using split.stands
  | _ => simp [Placed.declaration?] at hdeclared

namespace Metrics

def tally (parts : List Segment) : Metrics where
  constants := parts.countP (· matches .declaration .constant _)
  vars := parts.countP (· matches .declaration .variable _)
  functions := parts.countP (· matches .declaration .function _)
  skippedWords := parts.countP (· matches .word _)
  lineComments := parts.countP (· matches .lineComment _)
  blockComments := parts.countP (· matches .blockComment _ _)
  unclosedComments := parts.countP (· matches .blockComment _ false)
  truncated := parts.countP (· matches .truncated _ _)
  unclosedBodies := parts.countP (· matches .unclosed _ _)
  otherCharacters := parts.countP (· matches .other _)

instance : Add Metrics where
  add m n :=
    { constants := m.constants + n.constants
      vars := m.vars + n.vars
      functions := m.functions + n.functions
      skippedWords := m.skippedWords + n.skippedWords
      lineComments := m.lineComments + n.lineComments
      blockComments := m.blockComments + n.blockComments
      unclosedComments := m.unclosedComments + n.unclosedComments
      truncated := m.truncated + n.truncated
      unclosedBodies := m.unclosedBodies + n.unclosedBodies
      otherCharacters := m.otherCharacters + n.otherCharacters }

theorem add_def (m n : Metrics) :
    m + n =
      ⟨m.constants + n.constants, m.vars + n.vars, m.functions + n.functions,
        m.skippedWords + n.skippedWords, m.lineComments + n.lineComments,
        m.blockComments + n.blockComments, m.unclosedComments + n.unclosedComments,
        m.truncated + n.truncated, m.unclosedBodies + n.unclosedBodies,
        m.otherCharacters + n.otherCharacters⟩ := rfl

theorem tally_append (xs ys : List Segment) : tally (xs ++ ys) = tally xs + tally ys := by
  simp [tally, add_def]

theorem add_assoc (l m n : Metrics) : l + m + n = l + (m + n) := by
  simp [add_def, Nat.add_assoc]

theorem count_eq_add_tally (m : Metrics) (s : Segment) : m.count s = m + tally [s] := by
  cases s with
  | blockComment text closed => cases closed <;> rfl
  | declaration kind text => cases kind <;> rfl
  | _ => rfl

private theorem foldl_count (m : Metrics) (parts : List Segment) :
    parts.foldl count m = m + tally parts := by
  induction parts generalizing m with
  | nil => rfl
  | cons s parts ih =>
      have hcons : tally (s :: parts) = tally [s] + tally parts := tally_append [s] parts
      rw [List.foldl_cons, ih, count_eq_add_tally, add_assoc, hcons]

theorem ofSegments_eq_tally (parts : List Segment) : ofSegments parts = tally parts := by
  rw [ofSegments, foldl_count]
  simp [add_def]

end Metrics

theorem length_declared (parts : List Segment) :
    (parts.filterMap Segment.declared?).length = (Metrics.tally parts).declarations := by
  induction parts with
  | nil => rfl
  | cons s parts ih =>
      have hcons : Metrics.tally (s :: parts) = Metrics.tally [s] + Metrics.tally parts :=
        Metrics.tally_append [s] parts
      rw [hcons, Metrics.add_def, List.filterMap_cons]
      simp only [Metrics.declarations] at ih ⊢
      cases s with
      | declaration kind text =>
          cases kind <;> simp [Segment.declared?, Metrics.tally, ih] <;> omega
      | _ => simp [Segment.declared?, Metrics.tally, ih]

/-! ## Runs and scans -/

/-- A run places the segments of what is ahead, one behind the other, and stops at the end. It
fails where a walk over the same text fails. -/
theorem Cursor.runFrom_of_splits {c : Cursor} {cs : List Char} {parts : List Segment}
    (done : List Placed) (split : Splits cs parts) (hc : c.rest = cs) (whole : c.Whole) :
    c.runFrom done = c.moveOver cs [] >>= fun last =>
      .ok (done.reverse ++ place c.position parts, last) := by
  -- Each segment is one move; a move that fails stops the run and the walk alike.
  induction split generalizing c done with
  | nil =>
      have hstay : c.moveOver [] [] = .ok c := by
        cases c
        cases hc
        rfl
      rw [runFrom_of_end done hc, hstay, place_nil, List.append_nil]
      rfl
  | @cons s rest parts stands split ih =>
      have hsome : c.rest ≠ [] := by
        simp [hc, stands.text_ne_nil]
      rw [runFrom_of_next done hsome, next_of_stands whole stands hc, taking, moveOver_append,
        List.append_nil]
      cases hmove : c.moveOver s.text rest with
      | error fault => rfl
      | ok after =>
          have hposition := position_of_moveOver hmove
          have hrun := ih (⟨s, ⟨c.position, after.position⟩⟩ :: done) (rest_of_moveOver hmove)
            (whole.moveOver hc hmove)
          refine hrun.trans ?_
          rw [place_cons, ← hposition, List.reverse_cons, List.append_assoc, List.singleton_append]
          rfl

theorem run_ofSource (source : String) :
    (Cursor.ofSource source).runFrom [] =
      Position.start.advanceAll source.toList >>= fun stop =>
        .ok (place .start (segments source.toList), ⟨source, [], stop⟩) := by
  have whole : (Cursor.ofSource source).Whole := by
    simp [Cursor.Whole, Cursor.ofSource, Position.start, Text.byteLength_toList]
  rw [Cursor.runFrom_of_splits [] (splits_segments source.toList) rfl whole, Cursor.moveOver]
  cases h : Position.start.advanceAll source.toList with
  | error fault => simp [Cursor.ofSource, h, bind, Except.bind]
  | ok stop => simp [Cursor.ofSource, h, bind, Except.bind, pure, Except.pure]

theorem scan_of_fits (limits : Limits) (prefs : ScanPreferences) {source : String}
    (fit : PositionsFit source.toList) :
    scan limits prefs source = .ok (outcome limits prefs source) := by
  rw [scan, run_ofSource, Position.advanceAll_of_fits fit]
  rfl

theorem scan_of_not_fits (limits : Limits) (prefs : ScanPreferences) {source : String}
    (unfit : ¬ PositionsFit source.toList) :
    scan limits prefs source = .error .overflow := by
  rw [scan, run_ofSource, Position.advanceAll_of_not_fits (by decide) unfit]
  rfl

theorem scan_eq_ok {limits : Limits} {prefs : ScanPreferences} {source : String} {o : Outcome}
    (h : scan limits prefs source = .ok o) : o = outcome limits prefs source := by
  by_cases fit : PositionsFit source.toList
  · rw [scan_of_fits limits prefs fit] at h
    exact (Except.ok.inj h).symm
  · rw [scan_of_not_fits limits prefs fit] at h
    cases h

theorem metrics_outcome (limits : Limits) (prefs : ScanPreferences) (source : String) :
    (outcome limits prefs source).metrics = Metrics.tally (segments source.toList) := by
  rw [outcome, report, map_segment_place, Metrics.ofSegments_eq_tally]

theorem length_declarations (limits : Limits) (prefs : ScanPreferences) (source : String) :
    (outcome limits prefs source).declarations.length =
      (outcome limits prefs source).metrics.declarations := by
  have hdeclared := congrArg List.length (declarations_place .start (segments source.toList))
  rw [List.length_map, length_declared] at hdeclared
  rw [metrics_outcome]
  exact hdeclared

end CInventory.Scan
