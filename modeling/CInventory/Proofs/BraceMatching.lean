import Mathlib
import CInventory.Proofs.Boundaries
import CInventory.Proofs.Nesting

/-!
# Matching braces

The search for a matching brace counts groups without going below zero and stops at the first
brace that leaves none open. The balance check counts with a sign. From an opening brace on they
agree: the search stops at the end of the shortest balanced front part. Up to there some group is
open in front of every brace that closes, so the two counts are the same.
-/

namespace CInventory.Scan

/-! ## Front parts behind an opening brace -/

theorem HoldsOpen.of_isPrefix {depth : Nat} {front cs : List Char} (held : HoldsOpen depth cs)
    (hfront : front <+: cs) : HoldsOpen depth front :=
  fun part hpart => held part (hpart.trans hfront)

/-- As long as the first group is open, a front part has braces left to close. -/
theorem braceDepth_pos_of_holdsOpen {back part : List Char} (held : HoldsOpen 1 back)
    (hpart : part <+: '\x7b' :: back) (some_part : part ≠ []) : 0 < braceDepth part := by
  obtain rfl | ⟨tail, rfl, htail⟩ := List.prefix_cons_iff.mp hpart
  · exact absurd rfl some_part
  · rw [braceDepth_open]
    exact holdsOpen_one_iff.mp held tail htail

theorem not_balanced_of_braceDepth_pos {cs : List Char} (h : 0 < braceDepth cs) :
    balanced cs = false := by
  apply eq_false_of_ne_true
  intro hbalanced
  have hzero := (balanced_iff.mp hbalanced).1
  omega

/-- The group that the search finds is the shortest balanced front part. -/
theorem group_prefix_of_balanced {body after part : List Char} (inside : GroupBody body)
    (hpart : part <+: '\x7b' :: (body ++ '\x7d' :: after)) (some_part : part ≠ [])
    (hbalanced : balanced part = true) : '\x7b' :: (body ++ ['\x7d']) <+: part := by
  have group := isGroup_of_groupBody inside
  have hgroup : '\x7b' :: (body ++ ['\x7d']) <+: '\x7b' :: (body ++ '\x7d' :: after) :=
    ⟨after, by simp⟩
  rcases List.prefix_or_prefix_of_prefix hgroup hpart with h | h
  · exact h
  · by_cases heq : part = '\x7b' :: (body ++ ['\x7d'])
    · rw [heq]
    · have hpos := group.first part h some_part heq
      rw [not_balanced_of_braceDepth_pos hpos] at hbalanced
      cases hbalanced

/-! ## The search -/

section

variable {text front back : List Char} {start : Nat}

theorem matchingBrace?_eq_some_iff {close : Nat}
    (hcut : Text.cut? text start = some (front, '\x7b' :: back)) :
    matchingBrace? text start = some close ↔
      ∃ body after, back = body ++ '\x7d' :: after ∧ GroupBody body ∧
        close = start + Text.byteLength ('\x7b' :: body) := by
  have hsize : ∀ body, start + Text.byteLength ('\x7b' :: (body ++ ['\x7d'])) - 1 =
      start + Text.byteLength ('\x7b' :: body) := by
    intro body
    have hbrace : Char.utf8Size '\x7d' = 1 := rfl
    simp only [Text.byteLength_cons, Text.byteLength_append, Text.byteLength_nil]
    omega
  rw [matchingBrace?, hcut]
  simp only [Option.bind_eq_bind, Option.bind_some, Option.pure_def, Option.bind_eq_some_iff,
    Option.some.injEq, Prod.exists]
  constructor
  · rintro ⟨group, rest, hclosing, rfl⟩
    obtain ⟨body, hback, rfl, inside⟩ := closing?_some hclosing
    exact ⟨body, rest, hback, inside, hsize body⟩
  · rintro ⟨body, after, rfl, inside, rfl⟩
    exact ⟨_, _, closing?_of_groupBody after inside, hsize body⟩

theorem matchingBrace?_eq_none_iff
    (hcut : Text.cut? text start = some (front, '\x7b' :: back)) :
    matchingBrace? text start = none ↔ HoldsOpen 1 back := by
  rw [← closing?_eq_none_iff, matchingBrace?, hcut]
  cases hclosing : closing? ('\x7b' :: back) <;> simp [hclosing]

/-- The byte offsets of the characters through which a text is balanced, when it starts at
`start`. -/
def balancedEnds (start : Nat) (cs : List Char) : Set Nat :=
  {offset | ∃ passed c after, cs = passed ++ c :: after ∧
    offset = start + Text.byteLength passed ∧ balanced (passed ++ [c]) = true}

/-- A match is the first offset at which the text from the opening brace on is balanced. -/
theorem isLeast_of_matchingBrace? {close : Nat}
    (hcut : Text.cut? text start = some (front, '\x7b' :: back))
    (h : matchingBrace? text start = some close) :
    IsLeast (balancedEnds start ('\x7b' :: back)) close := by
  obtain ⟨body, after, rfl, inside, rfl⟩ := (matchingBrace?_eq_some_iff hcut).mp h
  constructor
  · exact ⟨'\x7b' :: body, '\x7d', after, rfl, rfl, (isGroup_of_groupBody inside).balanced⟩
  · rintro offset ⟨passed, c, rest, hsplit, rfl, hbalanced⟩
    have hpart : passed ++ [c] <+: '\x7b' :: (body ++ '\x7d' :: after) := ⟨rest, by simp [hsplit]⟩
    have hgroup := group_prefix_of_balanced inside hpart (by simp) hbalanced
    -- Without its last character, the shorter front part is one of the longer as well.
    have hshort : '\x7b' :: body <+: passed := by
      rcases List.prefix_concat_iff.mp hgroup with heq | hprefix
      · have hsame : '\x7b' :: body ++ ['\x7d'] = passed ++ [c] := heq
        rw [(List.append_inj' hsame rfl).1]
      · exact List.IsPrefix.trans ⟨['\x7d'], rfl⟩ hprefix
    exact Nat.add_le_add_left (Text.byteLength_le_of_isPrefix hshort) start

theorem matchingBrace?_eq_none_iff_not_balanced
    (hcut : Text.cut? text start = some (front, '\x7b' :: back)) :
    matchingBrace? text start = none ↔
      ∀ part, part <+: '\x7b' :: back → part ≠ [] → balanced part = false := by
  constructor
  · intro hmatch part hpart some_part
    have held := (matchingBrace?_eq_none_iff hcut).mp hmatch
    exact not_balanced_of_braceDepth_pos (braceDepth_pos_of_holdsOpen held hpart some_part)
  · intro never
    cases hmatch : matchingBrace? text start with
    | none => rfl
    | some close =>
        obtain ⟨body, after, rfl, inside, -⟩ := (matchingBrace?_eq_some_iff hcut).mp hmatch
        have hgroup := (isGroup_of_groupBody inside).balanced
        rw [never _ ⟨after, by simp⟩ (List.cons_ne_nil _ _)] at hgroup
        cases hgroup

theorem matchingBrace?_eq_some_iff_isLeast
    (hcut : Text.cut? text start = some (front, '\x7b' :: back)) (close : Nat) :
    matchingBrace? text start = some close ↔
      IsLeast (balancedEnds start ('\x7b' :: back)) close := by
  refine ⟨isLeast_of_matchingBrace? hcut, ?_⟩
  intro least
  cases hmatch : matchingBrace? text start with
  | some found => rw [least.unique (isLeast_of_matchingBrace? hcut hmatch)]
  | none =>
      obtain ⟨passed, c, after, hsplit, -, hbalanced⟩ := least.1
      have never := (matchingBrace?_eq_none_iff_not_balanced hcut).mp hmatch
      rw [never (passed ++ [c]) ⟨after, by simp [hsplit]⟩ (by simp)] at hbalanced
      cases hbalanced

/-! ## The depth of the search -/

/-- Where the search has not ended, it goes on with the groups that are open there. -/
theorem closingAux_append_of_none {taken passed : List Char} {depth : Nat}
    (h : closingAux taken depth passed = none) (more : List Char) :
    closingAux taken depth (passed ++ more) =
      closingAux (passed.reverse ++ taken) (depthFrom depth passed) more := by
  fun_induction closingAux taken depth passed with
  | case1 => rfl
  | case2 taken depth passed ih =>
      simpa [closingAux, depthFrom_cons, braceStep] using ih h
  | case3 => cases h
  | case4 taken depth passed hopen many ih =>
      rw [List.cons_append, closingAux, if_neg hopen, if_pos rfl, if_neg many, ih h]
      simp [depthFrom_cons, braceStep]
  | case5 taken depth c passed hopen hclose ih =>
      simpa [closingAux, depthFrom_cons, braceStep, hopen, hclose] using ih h

/-- While the depth does not fall below zero, counting with and without a sign is the same. -/
theorem depthFrom_eq_braceDepth (depth : Nat) (cs : List Char)
    (h : ∀ front, front <+: cs → 0 ≤ depth + braceDepth front) :
    (depthFrom depth cs : Int) = depth + braceDepth cs := by
  induction cs using List.reverseRecOn with
  | nil => simp [depthFrom, braceDepth]
  | append_singleton cs c ih =>
      have hcs := ih fun front hfront => h front (hfront.trans (List.prefix_append cs [c]))
      have hlast := h (cs ++ [c]) List.prefix_rfl
      have hstep : depthFrom depth (cs ++ [c]) = braceStep (depthFrom depth cs) c :=
        depthFrom_append depth cs [c]
      rw [braceDepth_append] at hlast ⊢
      rw [hstep, braceStep]
      split
      · next hopen =>
          subst hopen
          simp [braceDepth] at hcs ⊢
          omega
      · next hopen =>
          split
          · next hclose =>
              subst hclose
              simp [braceDepth] at hcs hlast ⊢
              omega
          · next hclose =>
              rw [hcs, braceDepth_other [] hopen hclose]
              simp [braceDepth]

/-- Up to a closing brace that the search reaches, the first group stays open. -/
theorem holdsOpen_of_reached {inner after : List Char}
    (hcut : Text.cut? text start = some (front, '\x7b' :: (inner ++ '\x7d' :: after)))
    (reached : ∀ close, matchingBrace? text start = some close →
      start + Text.byteLength ('\x7b' :: inner) ≤ close) : HoldsOpen 1 inner := by
  cases hmatch : matchingBrace? text start with
  | none =>
      have held := (matchingBrace?_eq_none_iff hcut).mp hmatch
      exact held.of_isPrefix (List.prefix_append _ _)
  | some close =>
      have hclose := reached close hmatch
      obtain ⟨body, rest, hsplit, inside, rfl⟩ := (matchingBrace?_eq_some_iff hcut).mp hmatch
      simp only [Text.byteLength_cons, Nat.add_le_add_iff_left] at hclose
      have hinner : inner <+: body := Text.prefix_of_byteLength_le (List.prefix_append inner _)
        (hsplit ▸ List.prefix_append body _) hclose
      exact inside.1.of_isPrefix hinner

theorem closing?_of_holdsOpen {inner : List Char} (held : HoldsOpen 1 inner) (more : List Char) :
    closing? ('\x7b' :: inner ++ more) =
      closingAux ('\x7b' :: inner).reverse (depthFrom 0 ('\x7b' :: inner)) more ∧
    (depthFrom 0 ('\x7b' :: inner) : Int) = braceDepth ('\x7b' :: inner) ∧
    1 ≤ depthFrom 0 ('\x7b' :: inner) := by
  have hpos : ∀ front, front <+: '\x7b' :: inner → front ≠ [] → 0 < braceDepth front :=
    fun front => braceDepth_pos_of_holdsOpen held
  have hdepth := depthFrom_eq_braceDepth 0 ('\x7b' :: inner) fun front hfront => by
    by_cases hnil : front = []
    · simp [hnil, braceDepth]
    · have hopen := hpos front hfront hnil
      omega
  have hsearch := closingAux_append_of_none (closing?_eq_none_iff.mpr held) more
  have hwhole := hpos _ List.prefix_rfl (List.cons_ne_nil _ _)
  rw [List.append_nil] at hsearch
  refine ⟨hsearch, ?_, ?_⟩ <;> omega

end

/-- The match of an opening brace is the least byte offset of a character through which the text
from the brace on is balanced; without a match no front part of that text is balanced but the empty
one. Where the search comes to a closing brace, its depth is the signed one and at least one. -/
theorem matchingBrace_agrees {text front back : List Char} {start : Nat}
    (hcut : Text.cut? text start = some (front, '\x7b' :: back)) :
    (∀ close, matchingBrace? text start = some close ↔
      IsLeast (balancedEnds start ('\x7b' :: back)) close) ∧
    (matchingBrace? text start = none ↔
      ∀ part, part <+: '\x7b' :: back → part ≠ [] → balanced part = false) ∧
    ∀ passed after, '\x7b' :: back = passed ++ '\x7d' :: after →
      (∀ close, matchingBrace? text start = some close →
        start + Text.byteLength passed ≤ close) →
      closing? ('\x7b' :: back) = closingAux passed.reverse (depthFrom 0 passed) ('\x7d' :: after) ∧
      (depthFrom 0 passed : Int) = braceDepth passed ∧
      1 ≤ depthFrom 0 passed := by
  refine ⟨matchingBrace?_eq_some_iff_isLeast hcut, matchingBrace?_eq_none_iff_not_balanced hcut, ?_⟩
  intro passed after hsplit reached
  cases passed with
  | nil => simp at hsplit
  | cons c inner =>
      obtain ⟨rfl, rfl⟩ := List.cons.inj hsplit
      exact closing?_of_holdsOpen (holdsOpen_of_reached hcut reached) ('\x7d' :: after)

/-- Two groups between characters of two bytes, and a closing brace too many. -/
theorem matchingBrace_agrees_twoGroups :
    Text.cut? "é\x7bé\x7b\x7d\x7d\x7d".toList 2 =
      some (['é'], '\x7b' :: "é\x7b\x7d\x7d\x7d".toList) ∧
    matchingBrace? "é\x7bé\x7b\x7d\x7d\x7d".toList 2 = some 7 ∧
    IsLeast (balancedEnds 2 ('\x7b' :: "é\x7b\x7d\x7d\x7d".toList)) 7 ∧
    (depthFrom 0 "\x7bé\x7b\x7d".toList : Int) = braceDepth "\x7bé\x7b\x7d".toList ∧
    1 ≤ depthFrom 0 "\x7bé\x7b\x7d".toList := by
  have hcut : Text.cut? "é\x7bé\x7b\x7d\x7d\x7d".toList 2 =
      some (['é'], '\x7b' :: "é\x7b\x7d\x7d\x7d".toList) := by decide
  have hmatch : matchingBrace? "é\x7bé\x7b\x7d\x7d\x7d".toList 2 = some 7 := by decide
  obtain ⟨hsome, -, hreached⟩ := matchingBrace_agrees hcut
  obtain ⟨-, hdepth, hpos⟩ := hreached "\x7bé\x7b\x7d".toList ['\x7d'] (by decide) fun close h => by
    rw [hmatch] at h
    cases h
    decide
  exact ⟨hcut, hmatch, (hsome 7).mp hmatch, hdepth, hpos⟩

end CInventory.Scan
