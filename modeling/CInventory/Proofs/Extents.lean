import Mathlib
import CInventory.Proofs.Segmentation

/-!
# How far declarations reach

`Extent` says for each kind which text a declaration has and what may follow it, in characters
and counts alone. A scan finds declarations of exactly these extents. The braces of a function
are matched from its first opening brace on, so its text is balanced exactly when no brace closes
in front of that one.
-/

namespace CInventory.Scan

/-! ## Brace groups by depth -/

def braceDepth (cs : List Char) : Int := (cs.count '\x7b' : Int) - cs.count '\x7d'

@[simp] theorem braceDepth_open (cs : List Char) :
    braceDepth ('\x7b' :: cs) = 1 + braceDepth cs := by
  simp [braceDepth]
  omega

@[simp] theorem braceDepth_append (xs ys : List Char) :
    braceDepth (xs ++ ys) = braceDepth xs + braceDepth ys := by
  simp [braceDepth]
  omega

/-- A text from an opening brace to the closing one that is the first to bring the depth back to
zero. -/
structure IsGroup (cs : List Char) : Prop where
  opens : cs.head? = some '\x7b'
  closes : cs.getLast? = some '\x7d'
  returns : braceDepth cs = 0
  first : ∀ front, front <+: cs → front ≠ [] → front ≠ cs → 0 < braceDepth front

theorem holdsOpen_one_iff {cs : List Char} :
    HoldsOpen 1 cs ↔ ∀ front, front <+: cs → 0 < 1 + braceDepth front := by
  refine forall_congr' fun front => imp_congr_right fun _ => ?_
  unfold braceDepth
  omega

theorem isGroup_of_groupBody {body : List Char} (inside : GroupBody body) :
    IsGroup ('\x7b' :: (body ++ ['\x7d'])) := by
  have hcounts : braceDepth body = 0 := by
    simp [braceDepth, inside.2]
  refine ⟨rfl, List.getLast?_eq_some_iff.mpr ⟨'\x7b' :: body, rfl⟩, ?_, ?_⟩
  · rw [braceDepth_open, braceDepth_append, hcounts]
    rfl
  · intro front hfront some_front proper
    obtain rfl | ⟨tail, rfl, htail⟩ := List.prefix_cons_iff.mp hfront
    · exact absurd rfl some_front
    · rcases List.prefix_concat_iff.mp htail with rfl | htail
      · exact absurd rfl proper
      · rw [braceDepth_open]
        exact holdsOpen_one_iff.mp inside.1 tail htail

theorem IsGroup.exists_body {cs : List Char} (group : IsGroup cs) :
    ∃ body, cs = '\x7b' :: (body ++ ['\x7d']) ∧ GroupBody body := by
  obtain ⟨front, rfl⟩ := List.getLast?_eq_some_iff.mp group.closes
  cases front with
  | nil => exact absurd group.opens (by decide)
  | cons c body =>
      have hc : c = '\x7b' := by simpa using group.opens
      subst hc
      have held : HoldsOpen 1 body := by
        rw [holdsOpen_one_iff]
        rintro front ⟨back, rfl⟩
        rw [← braceDepth_open]
        refine group.first _ ⟨back ++ ['\x7d'], by simp⟩ (by simp) ?_
        intro heq
        have hlength := congrArg List.length heq
        simp at hlength
      refine ⟨body, rfl, held, ?_⟩
      have hreturns := group.returns
      simp [braceDepth] at hreturns
      omega

/-! ## Extents -/

def keywords : Kind → List String
  | .constant => [constantKeyword]
  | .variable => baseTypes
  | .function => baseTypes

/-- `Extent kind text rest`: a declaration of `kind` may have the text `text` when `rest` follows
it to the end of the source. -/
inductive Extent : Kind → List Char → List Char → Prop where
  /-- The keyword and the rest of its line, up to blanks. -/
  | constantLine {tail rest : List Char}
      (boundary : ∀ c, tail.head? = some c → isWordChar c = false)
      (line : '\n' ∉ tail) (ends : EndsLine (constantKeyword.toList ++ tail) rest) :
      Extent .constant (constantKeyword.toList ++ tail) rest
  /-- A base type up to the first mark, and the rest of the line of the mark, up to blanks. -/
  | variableLine {type : String} {between tail rest : List Char} {mark : Char}
      (base : type ∈ baseTypes) (boundary : ∀ c, between.head? = some c → isWordChar c = false)
      (unmarked : ∀ c ∈ between, c ≠ ';' ∧ c ≠ '=' ∧ c ≠ '\x7b') (sort : mark = ';' ∨ mark = '=')
      (line : '\n' ∉ tail) (ends : EndsLine (type.toList ++ between ++ [mark] ++ tail) rest) :
      Extent .variable (type.toList ++ between ++ [mark] ++ tail) rest
  /-- A base type up to the first mark, and the group that this mark opens. -/
  | functionBody {type : String} {between group rest : List Char}
      (base : type ∈ baseTypes) (boundary : ∀ c, between.head? = some c → isWordChar c = false)
      (unmarked : ∀ c ∈ between, c ≠ ';' ∧ c ≠ '=' ∧ c ≠ '\x7b') (closed : IsGroup group) :
      Extent .function (type.toList ++ between ++ group) rest

theorem isBaseType_iff {word : String} : isBaseType word = true ↔ word ∈ baseTypes := by
  simp [isBaseType]

private theorem isMark_eq_false_iff {c : Char} :
    isMark c = false ↔ c ≠ ';' ∧ c ≠ '=' ∧ c ≠ '\x7b' := by
  simp [isMark, and_assoc]

theorem typedFront_iff {type : String} {between : List Char} :
    TypedFront type.toList between ↔ type ∈ baseTypes ∧
      (∀ c, between.head? = some c → isWordChar c = false) ∧
      ∀ c ∈ between, c ≠ ';' ∧ c ≠ '=' ∧ c ≠ '\x7b' := by
  constructor
  · intro front
    refine ⟨?_, front.boundary, fun c hc => isMark_eq_false_iff.mp (front.unmarked c hc)⟩
    have base := front.base
    rwa [String.ofList_toList, isBaseType_iff] at base
  · rintro ⟨base, boundary, unmarked⟩
    refine ⟨?_, boundary, fun c hc => isMark_eq_false_iff.mpr (unmarked c hc)⟩
    rwa [String.ofList_toList, isBaseType_iff]

/-- A declaration of this extent is what the scan takes there. -/
theorem Extent.stands {kind : Kind} {text rest : List Char} (extent : Extent kind text rest) :
    (Segment.declaration kind text).Stands rest := by
  cases extent with
  | constantLine boundary line ends =>
      exact .constantLine boundary (isNotLineFeed_iff_not_mem.mpr line) ends
  | variableLine base boundary unmarked sort line ends =>
      exact .variableLine (typedFront_iff.mpr ⟨base, boundary, unmarked⟩) sort
        (isNotLineFeed_iff_not_mem.mpr line) ends
  | functionBody base boundary unmarked closed =>
      obtain ⟨body, rfl, inside⟩ := closed.exists_body
      exact .functionBody (typedFront_iff.mpr ⟨base, boundary, unmarked⟩) inside

theorem extent_of_stands {kind : Kind} {text rest : List Char}
    (stands : (Segment.declaration kind text).Stands rest) : Extent kind text rest := by
  cases stands with
  | constantLine boundary line ends =>
      exact .constantLine boundary (isNotLineFeed_iff_not_mem.mp line) ends
  | @variableLine lead between tail _ mark front sort line ends =>
      rw [← String.toList_ofList (l := lead)] at front ends ⊢
      obtain ⟨base, boundary, unmarked⟩ := typedFront_iff.mp front
      exact .variableLine base boundary unmarked sort (isNotLineFeed_iff_not_mem.mp line) ends
  | @functionBody lead between body _ front inside =>
      rw [← String.toList_ofList (l := lead)] at front ⊢
      obtain ⟨base, boundary, unmarked⟩ := typedFront_iff.mp front
      exact .functionBody base boundary unmarked (isGroup_of_groupBody inside)

theorem Extent.keyword_isPrefix {kind : Kind} {text rest : List Char}
    (extent : Extent kind text rest) : ∃ word ∈ keywords kind, word.toList <+: text := by
  cases extent with
  | constantLine boundary line ends =>
      exact ⟨constantKeyword, by simp [keywords], List.prefix_append _ _⟩
  | @variableLine type between tail _ mark base boundary unmarked sort line ends =>
      refine ⟨type, base, ?_⟩
      rw [List.append_assoc, List.append_assoc]
      exact List.prefix_append _ _
  | @functionBody type between group _ base boundary unmarked closed =>
      refine ⟨type, base, ?_⟩
      rw [List.append_assoc]
      exact List.prefix_append _ _

/-- At one place of a source at most one text has an extent. -/
theorem Extent.unique {kind kind' : Kind} {text text' rest rest' : List Char}
    (extent : Extent kind text rest) (extent' : Extent kind' text' rest')
    (whole : text' ++ rest' = text ++ rest) : kind' = kind ∧ text' = text := by
  have hsegments := Segment.segments_of_stands extent.stands
  have hsegments' := Segment.segments_of_stands extent'.stands
  rw [Segment.text] at hsegments hsegments'
  rw [whole, hsegments] at hsegments'
  have hfirst := (List.cons.inj hsegments').1
  injection hfirst with hkind htext
  exact ⟨hkind.symm, htext.symm⟩

/-- Every declaration that a scan finds stands in its source between the positions of its span,
is not empty, starts with a keyword of its kind and has the extent of its kind; nothing else at
its place has one. -/
theorem declarations_extent (limits : Limits) (prefs : ScanPreferences) (source : String) :
    ∃ o : Outcome,
      o = outcome limits prefs source ∧
      (PositionsFit source.toList → scan limits prefs source = .ok o) ∧
      (¬ PositionsFit source.toList → scan limits prefs source = .error .overflow) ∧
      ∀ d ∈ o.declarations, ∃ front rest,
        source.toList = front ++ d.text.toList ++ rest ∧
        d.span = ⟨Position.start.walk front, Position.start.walk (front ++ d.text.toList)⟩ ∧
        Extent d.kind d.text.toList rest ∧
        d.text ≠ "" ∧
        (∃ word ∈ keywords d.kind, word.toList <+: d.text.toList) ∧
        ∀ kind text rest', text ++ rest' = d.text.toList ++ rest → Extent kind text rest' →
          kind = d.kind ∧ text = d.text.toList := by
  refine ⟨_, rfl, scan_of_fits limits prefs, scan_of_not_fits limits prefs, ?_⟩
  intro d hd
  obtain ⟨before, after, hparts, hspan, stands⟩ := mem_declarations hd
  have hwhole := segments_flatten source.toList
  rw [hparts, List.flatMap_append, List.flatMap_cons, ← List.append_assoc] at hwhole
  have extent := extent_of_stands stands
  refine ⟨before.flatMap Segment.text, after.flatMap Segment.text, hwhole.symm, hspan, extent, ?_,
    extent.keyword_isPrefix, ?_⟩
  · intro hempty
    exact stands.text_ne_nil (by simp [Segment.text, hempty])
  · intro kind text rest' whole extent'
    exact extent.unique extent' whole

/-! ## Balanced texts -/

@[simp] theorem braceDepth_close (cs : List Char) :
    braceDepth ('\x7d' :: cs) = braceDepth cs - 1 := by
  simp [braceDepth]
  omega

theorem braceDepth_other {c : Char} (cs : List Char) (hopen : c ≠ '\x7b') (hclose : c ≠ '\x7d') :
    braceDepth (c :: cs) = braceDepth cs := by
  rw [braceDepth, List.count_cons_of_ne hopen, List.count_cons_of_ne hclose, braceDepth]

/-- With `depth` groups open in front of it, a text is balanced when the depth never falls below
zero in it and is zero at its end. -/
theorem balancedFrom_iff {depth : Nat} {cs : List Char} :
    balancedFrom depth cs = true ↔
      depth + braceDepth cs = 0 ∧ ∀ front, front <+: cs → 0 ≤ depth + braceDepth front := by
  induction cs generalizing depth with
  | nil => simp [balancedFrom, braceDepth]
  | cons c cs ih =>
      have hempty : 0 ≤ (depth : Int) + braceDepth [] := by simp [braceDepth]
      rw [Text.forall_front_cons_iff, and_iff_right hempty]
      by_cases hopen : c = '\x7b'
      · subst hopen
        simp only [balancedFrom, if_true, ih, braceDepth_open, Nat.cast_add, Nat.cast_one,
          add_assoc]
      · by_cases hclose : c = '\x7d'
        · subst hclose
          simp only [braceDepth_close]
          cases depth with
          | zero =>
              simp only [balancedFrom, if_neg hopen, if_true, Bool.false_eq_true, false_iff,
                not_and, Nat.cast_zero]
              intro _ h
              have hempty := h [] List.nil_prefix
              simp [braceDepth] at hempty
          | succ depth =>
              have hshift : ∀ n : Int, ((depth + 1 : Nat) : Int) + (n - 1) = depth + n := by
                intro n
                omega
              simp only [balancedFrom, if_neg hopen, if_true, ih, hshift]
        · cases depth <;>
            simp only [balancedFrom, if_neg hopen, if_neg hclose, ih,
              braceDepth_other _ hopen hclose]

theorem balanced_iff {cs : List Char} :
    balanced cs = true ↔ braceDepth cs = 0 ∧ ∀ front, front <+: cs → 0 ≤ braceDepth front := by
  rw [balanced, balancedFrom_iff]
  simp

theorem IsGroup.balanced {cs : List Char} (group : IsGroup cs) : balanced cs = true := by
  refine balanced_iff.mpr ⟨group.returns, ?_⟩
  intro front hfront
  by_cases hnil : front = []
  · rw [hnil]
    rfl
  · by_cases hwhole : front = cs
    · rw [hwhole, group.returns]
    · exact Int.le_of_lt (group.first front hfront hnil hwhole)

private theorem braceDepth_of_no_open {cs : List Char} (h : '\x7b' ∉ cs) :
    braceDepth cs = -(cs.count '\x7d' : Int) := by
  rw [braceDepth, List.count_eq_zero.mpr h]
  omega

/-- In front of a group, a text without an opening brace keeps the balance exactly when it has no
closing one either. -/
theorem balanced_append_group {front group : List Char} (unopened : '\x7b' ∉ front)
    (closed : IsGroup group) : balanced (front ++ group) = true ↔ '\x7d' ∉ front := by
  constructor
  · intro h
    have hfront := (balanced_iff.mp h).2 front (List.prefix_append front group)
    rw [braceDepth_of_no_open unopened] at hfront
    exact List.count_eq_zero.mp (by omega)
  · intro unclosed
    have hzero : ∀ part, part <+: front → braceDepth part = 0 := by
      rintro part ⟨more, rfl⟩
      rw [List.mem_append, not_or] at unopened unclosed
      rw [braceDepth_of_no_open unopened.1, List.count_eq_zero.mpr unclosed.1]
      rfl
    obtain ⟨hreturns, hgroup⟩ := balanced_iff.mp closed.balanced
    refine balanced_iff.mpr ⟨?_, ?_⟩
    · rw [braceDepth_append, hzero front (List.prefix_refl front), hreturns]
      rfl
    · intro part hpart
      rcases List.prefix_or_prefix_of_prefix hpart (List.prefix_append front group) with
        hshort | ⟨more, rfl⟩
      · exact Int.le_of_eq (hzero part hshort).symm
      · have hmore := hgroup more ((List.prefix_append_right_inj front).mp hpart)
        rw [braceDepth_append, hzero front (List.prefix_refl front)]
        simpa using hmore

/-- The text of a function is a part without an opening brace and a group. -/
theorem Extent.function_split {text rest : List Char} (extent : Extent .function text rest) :
    IsGroup (text.dropWhile (· ≠ '\x7b')) ∧ '\x7b' ∉ text.takeWhile (· ≠ '\x7b') := by
  cases extent with
  | @functionBody type between group _ base boundary unmarked closed =>
      have hfront : ∀ c ∈ type.toList ++ between, c ≠ '\x7b' := by
        intro c hc
        rcases List.mem_append.mp hc with hc | hc
        · have hword : isWordChar c = true := by
            have hbase : isBaseType (String.ofList type.toList) = true := by
              rwa [String.ofList_toList, isBaseType_iff]
            obtain ⟨d, tail, htype, hlead, htail⟩ := Segment.keyword_word (.inr hbase)
            rw [htype] at hc
            rcases List.mem_cons.mp hc with rfl | hc
            · exact isWordChar_of_isLead hlead
            · exact htail c hc
          rintro rfl
          exact absurd hword (by decide)
        · exact (unmarked c hc).2.2
      have run : MaximalRun (fun c => decide (c ≠ '\x7b')) (type.toList ++ between) group := by
        refine ⟨fun c hc => decide_eq_true (hfront c hc), ?_⟩
        intro c hc
        rw [closed.opens] at hc
        cases hc
        rfl
      rw [run.dropWhile_eq, run.takeWhile_eq]
      exact ⟨closed, fun hmem => hfront _ hmem rfl⟩

/-- The braces of a function that a scan finds are balanced from its first opening brace on.
Its whole text is balanced exactly when no brace closes in front of that one. -/
theorem functions_balanced_iff (limits : Limits) (prefs : ScanPreferences) (source : String) :
    ∃ o : Outcome,
      o = outcome limits prefs source ∧
      (PositionsFit source.toList → scan limits prefs source = .ok o) ∧
      (¬ PositionsFit source.toList → scan limits prefs source = .error .overflow) ∧
      ∀ d ∈ o.declarations, d.kind = .function →
        balanced (d.text.toList.dropWhile (· ≠ '\x7b')) = true ∧
        (balanced d.text.toList = true ↔ '\x7d' ∉ d.text.toList.takeWhile (· ≠ '\x7b')) := by
  refine ⟨_, rfl, scan_of_fits limits prefs, scan_of_not_fits limits prefs, ?_⟩
  intro d hd hkind
  obtain ⟨before, after, -, -, stands⟩ := mem_declarations hd
  have extent := extent_of_stands stands
  rw [hkind] at extent
  obtain ⟨closed, unopened⟩ := extent.function_split
  have hbalanced := balanced_append_group unopened closed
  rw [List.takeWhile_append_dropWhile] at hbalanced
  exact ⟨closed.balanced, hbalanced⟩

/-- A comment between the parameters and the body of a function can hold a closing brace. -/
theorem functions_unbalanced_commentedBrace :
    ∃ o, scan Limits.development {} "int f() /* \x7d */ \x7b return 0; \x7d" = .ok o ∧
      ∃ d ∈ o.declarations, d.kind = .function ∧
        d.text = "int f() /* \x7d */ \x7b return 0; \x7d" ∧ balanced d.text.toList = false := by
  have fit : PositionsFit "int f() /* \x7d */ \x7b return 0; \x7d".toList :=
    Position.positionsFit_of_byteLength (by decide)
  have hfound : (outcome Limits.development {}
      "int f() /* \x7d */ \x7b return 0; \x7d").declarations =
        [⟨.function, "int f() /* \x7d */ \x7b return 0; \x7d",
          ⟨⟨0, 1, 1⟩, ⟨29, 1, 30⟩⟩⟩] := by cbv
  refine ⟨_, scan_of_fits Limits.development {} fit, _, hfound ▸ List.mem_singleton_self _, rfl,
    rfl, by decide⟩

end CInventory.Scan
