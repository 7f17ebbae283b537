import Mathlib
import CInventory.Proofs.Extents

/-!
# Brace groups around declarations

The body of a function is one group, so it leaves as many groups open as there were in front of
it: a declaration never stands in one. It does stand in the groups that the scan enters without a
declaration of their own. Their opening braces are those that the scan steps over, and those in
the lines of constants and variables.
-/

namespace CInventory.Scan

/-! ## Depth -/

def braceStep (depth : Nat) (c : Char) : Nat :=
  if c = '\x7b' then depth + 1 else if c = '\x7d' then depth - 1 else depth

/-- The number of groups open behind a text, with `depth` open in front of it. A brace that closes
none makes no difference. -/
def depthFrom (depth : Nat) (cs : List Char) : Nat := cs.foldl braceStep depth

theorem depthFrom_append (depth : Nat) (xs ys : List Char) :
    depthFrom depth (xs ++ ys) = depthFrom (depthFrom depth xs) ys := List.foldl_append

theorem depthFrom_cons (depth : Nat) (c : Char) (cs : List Char) :
    depthFrom depth (c :: cs) = depthFrom (braceStep depth c) cs := rfl

/-- A text that is balanced with `inner` groups open closes these and leaves the others. -/
theorem depthFrom_of_balancedFrom {inner : Nat} {cs : List Char} (depth : Nat)
    (h : balancedFrom inner cs = true) : depthFrom (depth + inner) cs = depth := by
  fun_induction balancedFrom inner cs with
  | case1 inner =>
      rw [beq_iff_eq.mp h]
      rfl
  | case2 inner cs ih => exact ih h
  | case3 cs => cases h
  | case4 cs hopen inner ih => exact ih h
  | case5 inner c cs hopen hclose ih =>
      rw [depthFrom_cons, braceStep, if_neg hopen, if_neg hclose]
      exact ih h

theorem depthFrom_of_balanced {cs : List Char} (depth : Nat) (h : balanced cs = true) :
    depthFrom depth cs = depth := depthFrom_of_balancedFrom depth h

theorem depthFrom_zero_of_not_mem {cs : List Char} (h : '\x7b' ∉ cs) : depthFrom 0 cs = 0 := by
  induction cs with
  | nil => rfl
  | cons c cs ih =>
      rw [List.mem_cons, not_or] at h
      have hstep : braceStep 0 c = 0 := by simp [braceStep, Ne.symm h.1]
      rw [depthFrom_cons, hstep]
      exact ih h.2

/-! ## What a segment leaves open -/

namespace Segment

/-- The text of a segment in front of a function's body; for other segments, all of it. -/
def outer : Segment → List Char
  | .declaration .function text => text.takeWhile (· ≠ '\x7b')
  | s => s.text

/-- Whether the scan goes on inside a group that a segment opens: it stepped over the brace, or
the brace stands in the line of a constant or variable. -/
def entersGroup : Segment → Bool
  | .other c => c = '\x7b'
  | .declaration .constant text => text.contains '\x7b'
  | .declaration .variable text => text.contains '\x7b'
  | _ => false

/-- The body of a function makes no difference to the depth. -/
theorem Stands.depthFrom_text {s : Segment} {rest : List Char} (stands : s.Stands rest)
    (depth : Nat) : depthFrom depth s.text = depthFrom depth s.outer := by
  cases s with
  | declaration kind text =>
      cases kind with
      | function =>
          have closed := (extent_of_stands stands).function_split.1
          rw [outer, Segment.text,
            ← List.takeWhile_append_dropWhile (p := (· ≠ '\x7b')) (l := text), depthFrom_append,
            depthFrom_of_balanced _ closed.balanced,
            List.takeWhile_append_dropWhile]
      | _ => rfl
  | _ => rfl

/-- Where no comment starts, the segments that open a group outside a body are those by which
the scan enters one. Something has to follow: at the end of a source a body may stay open. -/
theorem Stands.open_outer_iff {s : Segment} {rest : List Char} (stands : s.Stands rest)
    (more : rest ≠ []) (uncommented : ¬ ['/', '/'] <+: s.text ∧ ¬ ['/', '*'] <+: s.text) :
    '\x7b' ∈ s.outer ↔ s.entersGroup = true := by
  cases stands with
  | blank some_text run =>
      refine iff_of_false (fun h => ?_) Bool.false_ne_true
      exact absurd (run.inside _ h) (by decide)
  | @lineComment body rest run => exact absurd ⟨body, rfl⟩ uncommented.1
  | @closedComment body rest first => exact absurd ⟨body ++ closer, rfl⟩ uncommented.2
  | openComment never => exact absurd rfl more
  | constantLine => simp [outer, Segment.text, entersGroup]
  | variableLine => simp [outer, Segment.text, entersGroup]
  | functionBody front inside =>
      refine iff_of_false (fun h => ?_) Bool.false_ne_true
      have unopened := List.all_eq_true.mp List.all_takeWhile _ h
      exact absurd unopened (by decide)
  | @word c tail rest lead run plain untyped =>
      refine iff_of_false (fun h => ?_) Bool.false_ne_true
      rcases List.mem_cons.mp h with heq | hmem
      · exact absurd (heq ▸ lead) (by decide)
      · exact absurd (run.inside _ hmem) (by decide)
  | other solid unled uncommented => simp [outer, Segment.text, entersGroup, eq_comm]
  | truncated front => exact absurd rfl more
  | unclosed front held => exact absurd rfl more

end Segment

/-! ## What a front part of a source leaves open -/

/-- The groups open behind some segments are those that their texts outside bodies leave open. -/
theorem Splits.depthFrom_flatMap {cs : List Char} {before after : List Segment} (depth : Nat)
    (split : Splits cs (before ++ after)) :
    depthFrom depth (before.flatMap Segment.text) =
      depthFrom depth (before.flatMap Segment.outer) := by
  induction before generalizing cs depth with
  | nil => rfl
  | cons s before ih =>
      cases split with
      | cons stands split =>
          rw [List.flatMap_cons, List.flatMap_cons, depthFrom_append, depthFrom_append,
            stands.depthFrom_text, ih _ split]

/-- Nothing in front of a segment is a comment or runs to the end of the source. -/
theorem Splits.open_outer_iff {cs : List Char} {before after : List Segment} {last s : Segment}
    (split : Splits cs (before ++ last :: after))
    (plain : ¬ ['/', '/'] <:+: cs ∧ ¬ ['/', '*'] <:+: cs) (hs : s ∈ before) :
    '\x7b' ∈ s.outer ↔ s.entersGroup = true := by
  have hlast := split.stands.text_ne_nil
  obtain ⟨front, back, rfl⟩ := List.mem_iff_append.mp hs
  rw [List.append_assoc, List.cons_append] at split
  have hwhole := split.flatMap_text
  rw [List.flatMap_append, List.flatMap_cons] at hwhole
  have hpart : ∀ opener, opener <+: s.text → opener <:+: cs := by
    intro opener hopener
    rw [← hwhole]
    exact hopener.isInfix.trans (List.infix_append' _ _ _)
  refine split.stands.open_outer_iff ?_
    ⟨fun h => plain.1 (hpart _ h), fun h => plain.2 (hpart _ h)⟩
  simp [hlast]

/-- In a source without comments, a declaration stands in the groups that are left open by the
text in front of it outside the bodies of functions. The segments that open a group there are
those by which the scan enters one; without any, the declaration stands in no group. -/
theorem declarations_depth (limits : Limits) (prefs : ScanPreferences) (source : String)
    (plain : ¬ ['/', '/'] <:+: source.toList ∧ ¬ ['/', '*'] <:+: source.toList) :
    ∃ o : Outcome,
      o = outcome limits prefs source ∧
      (PositionsFit source.toList → scan limits prefs source = .ok o) ∧
      (¬ PositionsFit source.toList → scan limits prefs source = .error .overflow) ∧
      ∀ d ∈ o.declarations, ∃ (before after : List Segment) (front rest : List Char),
        segments source.toList = before ++ .declaration d.kind d.text.toList :: after ∧
        front = before.flatMap Segment.text ∧
        Text.cut? source.toList d.span.start.offset = some (front, rest) ∧
        depthFrom 0 front = depthFrom 0 (before.flatMap Segment.outer) ∧
        (∀ s ∈ before, '\x7b' ∈ s.outer ↔ s.entersGroup = true) ∧
        ((∀ s ∈ before, s.entersGroup = false) → depthFrom 0 front = 0) := by
  refine ⟨_, rfl, scan_of_fits limits prefs, scan_of_not_fits limits prefs, ?_⟩
  intro d hd
  obtain ⟨before, after, hparts, hspan, -⟩ := mem_declarations hd
  have split := splits_segments source.toList
  rw [hparts] at split
  have hdepth := split.depthFrom_flatMap 0
  have henters : ∀ s ∈ before, '\x7b' ∈ s.outer ↔ s.entersGroup = true :=
    fun s hs => split.open_outer_iff plain hs
  have hcut : Text.cut? source.toList d.span.start.offset =
      some (before.flatMap Segment.text,
        (Segment.declaration d.kind d.text.toList :: after).flatMap Segment.text) := by
    have hoffset : d.span.start.offset = Text.byteLength (before.flatMap Segment.text) := by
      rw [hspan, Position.walk_offset]
      exact Nat.zero_add _
    rw [hoffset, ← split.flatMap_text, List.flatMap_append, Text.cut?_append]
  refine ⟨before, after, _, _, hparts, rfl, hcut, hdepth, henters, ?_⟩
  intro outside
  rw [hdepth]
  apply depthFrom_zero_of_not_mem
  intro hmem
  obtain ⟨s, hs, opens⟩ := List.mem_flatMap.mp hmem
  have hin := (henters s hs).mp opens
  rw [outside s hs] at hin
  cases hin

def memberSource : String := "void f() \x7b \x7b\x7d \x7d\nstruct S \x7b\n int x;\n\x7d;\nint y;"

private theorem declarations_memberSource :
    (outcome Limits.development {} memberSource).declarations =
      [⟨.function, "void f() \x7b \x7b\x7d \x7d", ⟨⟨0, 1, 1⟩, ⟨15, 1, 16⟩⟩⟩,
        ⟨.variable, "int x;", ⟨⟨28, 3, 2⟩, ⟨34, 3, 8⟩⟩⟩,
        ⟨.variable, "int y;", ⟨⟨38, 5, 1⟩, ⟨44, 5, 7⟩⟩⟩] := by cbv

/-- Of three declarations only the member stands in a group, which the scan enters. -/
theorem declarations_depth_memberSource :
    (¬ ['/', '/'] <:+: memberSource.toList ∧ ¬ ['/', '*'] <:+: memberSource.toList) ∧
    ∃ o, scan Limits.development {} memberSource = .ok o ∧
      (o.declarations.map fun d =>
        (Text.cut? memberSource.toList d.span.start.offset).map fun cut => depthFrom 0 cut.1) =
          [some 0, some 1, some 0] ∧
      ∀ d ∈ o.declarations, ∃ (before after : List Segment) (front rest : List Char),
        segments memberSource.toList = before ++ .declaration d.kind d.text.toList :: after ∧
        Text.cut? memberSource.toList d.span.start.offset = some (front, rest) ∧
        depthFrom 0 front = depthFrom 0 (before.flatMap Segment.outer) ∧
        (∀ s ∈ before, '\x7b' ∈ s.outer ↔ s.entersGroup = true) := by
  have plain : ¬ ['/', '/'] <:+: memberSource.toList ∧ ¬ ['/', '*'] <:+: memberSource.toList := by
    decide
  have fit : PositionsFit memberSource.toList := Position.positionsFit_of_byteLength (by decide)
  obtain ⟨o, rfl, hscan, -, hdepth⟩ := declarations_depth Limits.development {} memberSource plain
  refine ⟨plain, _, hscan fit, ?_, ?_⟩
  · rw [declarations_memberSource]
    decide
  · intro d hd
    obtain ⟨before, after, front, rest, hparts, -, hcut, heq, henters, -⟩ := hdepth d hd
    exact ⟨before, after, front, rest, hparts, hcut, heq, henters⟩

/-- The member of a structure is found as a declaration, though it stands in a group. -/
theorem declarations_enclosed_member :
    (¬ ['/', '/'] <:+: "struct S \x7b int x; \x7d;".toList ∧
      ¬ ['/', '*'] <:+: "struct S \x7b int x; \x7d;".toList) ∧
    ∃ o, scan Limits.development {} "struct S \x7b int x; \x7d;" = .ok o ∧
      ∃ d ∈ o.declarations, ∃ front rest,
        Text.cut? "struct S \x7b int x; \x7d;".toList d.span.start.offset = some (front, rest) ∧
        depthFrom 0 front = 1 := by
  have fit : PositionsFit "struct S \x7b int x; \x7d;".toList :=
    Position.positionsFit_of_byteLength (by decide)
  have hfound : (outcome Limits.development {} "struct S \x7b int x; \x7d;").declarations =
      [⟨.variable, "int x; \x7d;", ⟨⟨11, 1, 12⟩, ⟨20, 1, 21⟩⟩⟩] := by cbv
  exact ⟨by decide, _, scan_of_fits Limits.development {} fit, _,
    hfound ▸ List.mem_singleton_self _, "struct S \x7b ".toList, "int x; \x7d;".toList, by decide,
    by decide⟩

end CInventory.Scan
