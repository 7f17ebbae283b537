import CInventory.Proofs.Composition

/-!
# Scanning what was written

The texts of one kind are written one behind the other, each with a line feed. Every text that a
scan took stands on its own, also when it has several lines, so a scan of the written file finds
the same texts again and nothing else.
-/

namespace CInventory

/-- An inventory filled by scans, each of any source under any preferences. -/
inductive Inventory.Filled : Inventory → Prop where
  | empty : Filled .empty
  | scan {inv : Inventory} {limits : Limits} {prefs : ScanPreferences} {source : String}
      {o : Scan.Outcome} (filled : Filled inv)
      (scanned : Scan.scan limits prefs source = .ok o) : Filled (inv.addAll o.declarations)

namespace Scan

/-- A declaration that can stand somewhere can stand on lines of its own. -/
theorem Segment.Stands.onLine {kind : Kind} {text rest : List Char}
    (stands : (Segment.declaration kind text).Stands rest) (more : List Char) :
    (Segment.declaration kind text).Stands ('\n' :: more) := by
  have hends : ∀ {front : List Char}, EndsLine front rest → EndsLine front ('\n' :: more) := by
    intro front ends
    refine ⟨ends.solid, ?_⟩
    intro c hc
    simp [isNotLineFeed] at hc
  cases stands with
  | constantLine boundary line ends => exact .constantLine boundary line (hends ends)
  | variableLine front sort line ends => exact .variableLine front sort line (hends ends)
  | functionBody front inside => exact .functionBody front inside

/-- A text that a scan can take as a declaration of kind `k`. -/
def Declares (k : Kind) (text : List Char) : Prop :=
  ∃ rest, (Segment.declaration k text).Stands rest

theorem declares_of_mem_outcome {limits : Limits} {prefs : ScanPreferences} {source : String}
    {d : Declaration} (h : d ∈ (outcome limits prefs source).declarations) :
    Declares d.kind d.text.toList := by
  obtain ⟨before, after, -, -, stands⟩ := mem_declarations h
  exact ⟨_, stands⟩

/-- Everything in a filled inventory was taken by some scan, under its kind. -/
theorem declares_of_filled {inv : Inventory} (filled : inv.Filled) (k : Kind) :
    ∀ d ∈ inv.ofKind k, d.kind = k ∧ Declares k d.text.toList := by
  induction filled with
  | empty => simp
  | scan filled scanned ih =>
      intro d hd
      rw [Inventory.ofKind_addAll, List.mem_append, List.mem_filter] at hd
      rcases hd with hd | ⟨hd, hkind⟩
      · exact ih d hd
      · have hk : d.kind = k := by simpa using hkind
        rw [scan_eq_ok scanned] at hd
        have hdeclares := declares_of_mem_outcome hd
        rw [hk] at hdeclares
        exact ⟨hk, hdeclares⟩

/-! ## The written text -/

def lined (texts : List String) : List Char := texts.flatMap fun text => text.toList ++ ['\n']

@[simp] theorem lined_nil : lined [] = [] := rfl

@[simp] theorem lined_cons (text : String) (texts : List String) :
    lined (text :: texts) = text.toList ++ '\n' :: lined texts := by
  simp [lined]

theorem toList_render (inv : Inventory) (k : Kind) :
    (inv.render k).toList = lined (inv.texts k) := by
  have hfold : ∀ (texts : List String) (content : String),
      (texts.foldl (fun content text => content ++ text ++ "\n") content).toList =
        content.toList ++ lined texts := by
    intro texts
    induction texts with
    | nil => simp
    | cons text texts ih =>
        intro content
        rw [List.foldl_cons, ih]
        simp
  simpa [Inventory.render] using hfold (inv.texts k) ""

/-- A text on lines of its own is taken whole, and the scan goes on at the start of a line. -/
theorem visible_line {k : Kind} {text : List Char} (declares : Declares k text) (p : Position)
    (more : List Char) :
    visible p (text ++ '\n' :: more) =
      ⟨.declaration k text, ⟨p, p.walk text⟩⟩ :: visible (p.walk (text ++ ['\n'])) more := by
  obtain ⟨rest, stands⟩ := declares
  have hfirst := visible_of_stands p (stands.onLine more) rfl
  rw [Segment.text] at hfirst
  rw [hfirst, visible_lineFeed, Position.walk_append]

private theorem segments_lined {k : Kind} {texts : List String}
    (declares : ∀ text ∈ texts, Declares k text.toList) (p : Position) :
    (visible p (lined texts)).map Placed.segment =
      texts.map fun text => .declaration k text.toList := by
  induction texts generalizing p with
  | nil => simp
  | cons text texts ih =>
      have hrest := ih (fun t ht => declares t (List.mem_cons_of_mem text ht))
      rw [lined_cons, visible_line (declares text List.mem_cons_self), List.map_cons, hrest,
        List.map_cons]

theorem declarations_lined {k : Kind} {texts : List String}
    (declares : ∀ text ∈ texts, Declares k text.toList) (p : Position) :
    (visible p (lined texts)).filterMap Placed.declaration? =
      texts.mapIdx fun i text =>
        ⟨k, text, ⟨p.walk (lined (texts.take i)),
          p.walk (lined (texts.take i) ++ text.toList)⟩⟩ := by
  induction texts generalizing p with
  | nil => simp
  | cons text texts ih =>
      have hrest := ih (fun t ht => declares t (List.mem_cons_of_mem text ht))
        (p.walk (text.toList ++ ['\n']))
      rw [lined_cons, visible_line (declares text List.mem_cons_self), List.filterMap_cons, hrest,
        List.mapIdx_cons]
      simp [Placed.declaration?]

private theorem walk_lined (texts : List String) :
    Position.start.walk (lined texts) =
      Position.start.shift (texts.map fun text => text.utf8ByteSize + 1).sum
        (texts.map fun text => text.toList.count '\n' + 1).sum := by
  induction texts with
  | nil => rfl
  | cons text texts ih =>
      have happend : lined (text :: texts) = text.toList ++ ['\n'] ++ lined texts := by simp
      rw [happend, Position.walk_append, Position.walk_lineFeed, Position.walk_shift, ih,
        Text.byteLength_toList]
      simp [Position.shift]
      omega

def Metrics.only (n : Nat) : Kind → Metrics
  | .constant => { constants := n }
  | .variable => { vars := n }
  | .function => { functions := n }

theorem Metrics.tally_declarations (k : Kind) (texts : List String) :
    Metrics.tally (texts.map fun text => .declaration k text.toList) =
      Metrics.only texts.length k := by
  cases k <;> simp [Metrics.tally, Metrics.only, List.countP_map, Function.comp_def]

/-- A scan of the file written for a kind finds the declarations of that kind again, each at the
start of the line behind the ones before it, and nothing else. -/
theorem rescan_render {inv : Inventory} (filled : inv.Filled) (k : Kind) (limits : Limits)
    (prefs : ScanPreferences) :
    ∃ o : Outcome,
      o = outcome limits prefs (inv.render k) ∧
      (PositionsFit (inv.render k).toList → scan limits prefs (inv.render k) = .ok o) ∧
      (¬ PositionsFit (inv.render k).toList →
        scan limits prefs (inv.render k) = .error .overflow) ∧
      o.declarations.length = inv.count k ∧
      (∀ d ∈ o.declarations, d.kind = k) ∧
      (Inventory.empty.addAll o.declarations).texts k = inv.texts k ∧
      (∀ l, l ≠ k → (Inventory.empty.addAll o.declarations).ofKind l = []) ∧
      o.metrics = Metrics.only (inv.count k) k ∧
      ∀ i d, o.declarations[i]? = some d →
        d.column = 1 ∧
        d.line = 1 + (((inv.texts k).take i).map fun text => text.toList.count '\n' + 1).sum ∧
        d.span.start.offset =
          (((inv.texts k).take i).map fun text => text.utf8ByteSize + 1).sum := by
  have hdeclares : ∀ text ∈ inv.texts k, Declares k text.toList := by
    intro text htext
    obtain ⟨d, hd, rfl⟩ := List.mem_map.mp htext
    exact (declares_of_filled filled k d hd).2
  have hfound := declarations_lined hdeclares .start
  have hmetrics := metrics_eq_visible limits prefs (inv.render k)
  rw [toList_render, segments_lined hdeclares, Metrics.tally_declarations] at hmetrics
  rw [← toList_render, ← declarations_eq_visible limits prefs] at hfound
  have hlength : (inv.texts k).length = inv.count k := by simp [Inventory.texts, Inventory.count]
  have hkind : ∀ d ∈ (outcome limits prefs (inv.render k)).declarations, d.kind = k := by
    rw [hfound]
    intro d hd
    obtain ⟨i, hi, rfl⟩ := List.mem_mapIdx.mp hd
    rfl
  have htexts : (outcome limits prefs (inv.render k)).declarations.map Declaration.text =
      inv.texts k := by
    apply List.ext_getElem?
    intro i
    rw [hfound, List.getElem?_map, List.getElem?_mapIdx, Option.map_map]
    exact congrFun Option.map_id _
  refine ⟨_, rfl, scan_of_fits limits prefs, scan_of_not_fits limits prefs, ?_, hkind, ?_, ?_,
    ?_, ?_⟩
  · rw [hfound, List.length_mapIdx, hlength]
  · have hfilter := List.filter_eq_self.mpr fun d hd => decide_eq_true (hkind d hd)
    rw [Inventory.texts, Inventory.ofKind_addAll, Inventory.ofKind_empty, List.nil_append, hfilter,
      htexts]
  · intro l hl
    rw [Inventory.ofKind_addAll, Inventory.ofKind_empty, List.nil_append, List.filter_eq_nil_iff]
    intro d hd
    rw [hkind d hd]
    simpa using Ne.symm hl
  · rw [hmetrics, hlength]
  · intro i d hd
    rw [hfound, List.getElem?_mapIdx, Option.map_eq_some_iff] at hd
    obtain ⟨text, -, rfl⟩ := hd
    simp only [Declaration.column, Declaration.line, walk_lined]
    exact ⟨rfl, rfl, by simp [Position.shift, Position.start]⟩

/-- Two scans, a body with a line feed in it and a brace in front of the first mark. -/
theorem rescan_render_twoScans :
    ∃ inv : Inventory, inv.Filled ∧
      inv.texts .function = ["void f()\x7b\n\x7d", "int\x7d g()\x7b\x7b\x7d\x7d"] ∧
      ∃ o, scan Limits.development {} (inv.render .function) = .ok o ∧
        o.declarations.length = 2 ∧
        (Inventory.empty.addAll o.declarations).texts .function =
          ["void f()\x7b\n\x7d", "int\x7d g()\x7b\x7b\x7d\x7d"] ∧
        o.metrics = { functions := 2 } ∧
        ∀ d, o.declarations[1]? = some d → d.column = 1 ∧ d.line = 3 := by
  have fitFirst : PositionsFit "x void f()\x7b\n\x7d; int a;".toList :=
    Position.positionsFit_of_byteLength (by decide)
  have fitSecond : PositionsFit "int\x7d g()\x7b\x7b\x7d\x7d /**/ const b".toList :=
    Position.positionsFit_of_byteLength (by decide)
  have filled := (Inventory.Filled.empty.scan (scan_of_fits Limits.development {} fitFirst)).scan
    (scan_of_fits Limits.development {} fitSecond)
  generalize hinv : (Inventory.empty.addAll _).addAll _ = inv at filled
  have htexts : inv.texts .function =
      ["void f()\x7b\n\x7d", "int\x7d g()\x7b\x7b\x7d\x7d"] := by
    rw [← hinv]
    cbv
  have fit : PositionsFit (inv.render .function).toList := by
    rw [toList_render, htexts]
    exact Position.positionsFit_of_byteLength (by decide)
  have hcount : inv.count .function = 2 := by
    have hlength := congrArg List.length htexts
    rwa [Inventory.texts, List.length_map] at hlength
  obtain ⟨o, -, hscan, -, hlength, -, hfound, -, hmetrics, hplace⟩ :=
    rescan_render filled .function Limits.development {}
  rw [hcount] at hlength hmetrics
  rw [htexts] at hfound hplace
  refine ⟨inv, filled, htexts, o, hscan fit, hlength, hfound, hmetrics, ?_⟩
  intro d hd
  obtain ⟨hcolumn, hline, -⟩ := hplace 1 d hd
  exact ⟨hcolumn, hline.trans (by decide)⟩

end Scan

end CInventory
