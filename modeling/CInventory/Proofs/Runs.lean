import CInventory.Scan.Segment

/-!
# Maximal runs and line ends

How far a run, a line and a trimmed line reach, said by what stands inside and what stands
behind. The scan finds these ends by `takeWhile`, `dropWhile` and `trimEnd`; the two sides agree.
-/

namespace CInventory.Scan

/-- `body` is all of the run of `p` at the front of `body ++ rest`. -/
structure MaximalRun (p : Char → Bool) (body rest : List Char) : Prop where
  inside : ∀ c ∈ body, p c = true
  stop : ∀ c, rest.head? = some c → p c = false

namespace MaximalRun

theorem of_split (p : Char → Bool) (cs : List Char) :
    MaximalRun p (cs.takeWhile p) (cs.dropWhile p) := by
  constructor
  · exact List.all_eq_true.mp List.all_takeWhile
  · intro c hc
    have hn := List.head?_dropWhile_not p cs
    rw [hc] at hn
    exact hn

theorem takeWhile_eq {p : Char → Bool} {body rest : List Char} (run : MaximalRun p body rest) :
    (body ++ rest).takeWhile p = body := by
  rw [List.takeWhile_append_of_pos run.inside]
  cases rest with
  | nil => simp
  | cons c rest => simp [run.stop c rfl]

theorem dropWhile_eq {p : Char → Bool} {body rest : List Char} (run : MaximalRun p body rest) :
    (body ++ rest).dropWhile p = rest := by
  rw [List.dropWhile_append_of_pos run.inside]
  cases rest with
  | nil => rfl
  | cons c rest => simp [run.stop c rfl]

/-- More text may follow when it does not start inside the class either. -/
theorem extend {p : Char → Bool} {body rest more : List Char} (run : MaximalRun p body rest)
    (stop : ∀ c, more.head? = some c → p c = false) : MaximalRun p body (rest ++ more) := by
  refine ⟨run.inside, ?_⟩
  cases rest with
  | nil => exact stop
  | cons c rest => exact run.stop

end MaximalRun

/-! ## Trimmed line ends -/

def EndsSolid (text : List Char) : Prop := ∀ c, text.getLast? = some c → Text.isBlank c = false

theorem endsSolid_trimEnd (cs : List Char) : EndsSolid (Text.trimEnd cs) := by
  intro c hc
  have hn := List.head?_dropWhile_not Text.isBlank cs.reverse
  rw [Text.trimEnd, List.getLast?_reverse] at hc
  rw [hc] at hn
  exact hn

theorem trimEnd_eq_self {text : List Char} (solid : EndsSolid text) : Text.trimEnd text = text := by
  unfold Text.trimEnd
  cases h : text.reverse with
  | nil => simpa using h
  | cons c cs =>
      have hlast : text.getLast? = some c := by
        rw [List.getLast?_eq_head?_reverse, h]; rfl
      rw [List.dropWhile_cons_of_neg (by simp [solid c hlast]), ← h, List.reverse_reverse]

theorem trimEnd_append_blanks {text cut : List Char} (solid : EndsSolid text)
    (blanks : ∀ c ∈ cut, Text.isBlank c = true) : Text.trimEnd (text ++ cut) = text := by
  have hcut : ∀ c ∈ cut.reverse, Text.isBlank c = true := by
    intro c hc
    exact blanks c (List.mem_reverse.mp hc)
  have hself := trimEnd_eq_self solid
  unfold Text.trimEnd at hself ⊢
  rw [List.reverse_append, List.dropWhile_append_of_pos hcut, hself]

theorem EndsSolid.append {front back : List Char} (hf : EndsSolid front) (hb : EndsSolid back) :
    EndsSolid (front ++ back) := by
  intro c hc
  rw [List.getLast?_append, Option.or_eq_some_iff] at hc
  rcases hc with hc | ⟨_, hc⟩
  · exact hb c hc
  · exact hf c hc

theorem isNotLineFeed_iff_not_mem {cs : List Char} :
    (∀ c ∈ cs, isNotLineFeed c = true) ↔ '\n' ∉ cs := by
  simp only [isNotLineFeed, bne_iff_ne]
  exact ⟨fun h hmem => h _ hmem rfl, fun h c hc heq => h (heq ▸ hc)⟩

/-- Up to blanks `text` reaches the end of its line: it does not end in a blank, and only blanks
stand between it and the next line feed or the end. -/
structure EndsLine (text rest : List Char) : Prop where
  solid : EndsSolid text
  blanks : ∀ c ∈ rest.takeWhile isNotLineFeed, Text.isBlank c = true

private theorem takeWhile_append_lineFeed (rest more : List Char) :
    (rest ++ '\n' :: more).takeWhile isNotLineFeed = rest.takeWhile isNotLineFeed := by
  induction rest with
  | nil => rfl
  | cons c rest ih =>
      rw [List.cons_append, List.takeWhile_cons, List.takeWhile_cons, ih]

theorem EndsLine.extend {text rest : List Char} (ends : EndsLine text rest) (more : List Char) :
    EndsLine text (rest ++ '\n' :: more) := by
  refine ⟨ends.solid, ?_⟩
  rw [takeWhile_append_lineFeed]
  exact ends.blanks

namespace Segment

/-- A capture to the end of the line takes exactly the text that ends the line. -/
theorem captureLine_of_endsLine (kind : Kind) {front tail rest : List Char}
    (line : ∀ c ∈ tail, isNotLineFeed c = true) (ends : EndsLine (front ++ tail) rest) :
    captureLine kind front (tail ++ rest) = (.declaration kind (front ++ tail), rest) := by
  have htext : Text.trimEnd (front ++ (tail ++ rest.takeWhile isNotLineFeed)) = front ++ tail := by
    rw [← List.append_assoc]
    exact trimEnd_append_blanks ends.solid ends.blanks
  simp only [captureLine, List.takeWhile_append_of_pos line, List.dropWhile_append_of_pos line,
    htext]
  rw [← List.append_assoc, List.drop_left, List.takeWhile_append_dropWhile]

theorem captureLine_endsLine (kind : Kind) {front : List Char} (rest : List Char)
    (solid : EndsSolid front) :
    ∃ tail rest', rest = tail ++ rest' ∧ (∀ c ∈ tail, isNotLineFeed c = true) ∧
      EndsLine (front ++ tail) rest' ∧
      captureLine kind front rest = (.declaration kind (front ++ tail), rest') := by
  let line := rest.takeWhile isNotLineFeed
  let cut := (line.reverse.takeWhile Text.isBlank).reverse
  have hline : Text.trimEnd line ++ cut = line := Text.trimEnd_append_cut line
  have hinside : ∀ c ∈ Text.trimEnd line ++ cut, isNotLineFeed c = true := by
    rw [hline]
    exact (MaximalRun.of_split isNotLineFeed rest).inside
  have hrest : rest = Text.trimEnd line ++ (cut ++ rest.dropWhile isNotLineFeed) := by
    rw [← List.append_assoc, hline, List.takeWhile_append_dropWhile]
  have hcut : (cut ++ rest.dropWhile isNotLineFeed).takeWhile isNotLineFeed = cut :=
    MaximalRun.takeWhile_eq ⟨fun c hc => hinside c (List.mem_append_right _ hc),
      (MaximalRun.of_split isNotLineFeed rest).stop⟩
  have hends : EndsLine (front ++ Text.trimEnd line) (cut ++ rest.dropWhile isNotLineFeed) := by
    refine ⟨solid.append (endsSolid_trimEnd line), ?_⟩
    rw [hcut]
    intro c hc
    exact List.all_eq_true.mp List.all_takeWhile c (List.mem_reverse.mp hc)
  have htail : ∀ c ∈ Text.trimEnd line, isNotLineFeed c = true :=
    fun c hc => hinside c (List.mem_append_left _ hc)
  refine ⟨Text.trimEnd line, cut ++ rest.dropWhile isNotLineFeed, hrest, htail, hends, ?_⟩
  rw [← captureLine_of_endsLine kind htail hends, ← hrest]

end Segment

end CInventory.Scan
