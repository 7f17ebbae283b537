import CInventory.Scan.Brace

/-!
# The grammar of balanced braces

A text is balanced when its braces, read without the characters between them, are a word of the
grammar that has an empty word and a group in front of another word. The check counts instead of
reading groups. What ties the two is the number of groups that are open: a text that is balanced
with some groups open closes them one by one, with a word of the grammar in front of each closing
brace.
-/

namespace CInventory.Scan

/-- The words of the grammar: nothing, or an opening brace, a word, a closing brace and a word. -/
inductive Nested : List Char → Prop where
  | empty : Nested []
  | group {inner after : List Char} (inside : Nested inner) (behind : Nested after) :
      Nested ('\x7b' :: (inner ++ '\x7d' :: after))

def isBrace (c : Char) : Bool := c = '\x7b' || c = '\x7d'

def braces (cs : List Char) : List Char := cs.filter isBrace

/-! ## Only braces count -/

private theorem balancedFrom_open (depth : Nat) (cs : List Char) :
    balancedFrom depth ('\x7b' :: cs) = balancedFrom (depth + 1) cs := rfl

private theorem balancedFrom_close (depth : Nat) (cs : List Char) :
    balancedFrom (depth + 1) ('\x7d' :: cs) = balancedFrom depth cs := rfl

theorem balancedFrom_braces (depth : Nat) (cs : List Char) :
    balancedFrom depth (braces cs) = balancedFrom depth cs := by
  fun_induction balancedFrom depth cs with
  | case1 depth => rfl
  | case2 depth cs ih => exact ih
  | case3 cs => rfl
  | case4 cs hopen depth ih => exact ih
  | case5 depth c cs hopen hclose ih =>
      have hother : isBrace c = false := by simp [isBrace, hopen, hclose]
      rw [braces, List.filter_cons_of_neg (by simp [hother])]
      exact ih

/-! ## Words are balanced -/

/-- A word of the grammar closes what it opens, so the count goes on behind it as it came. -/
theorem Nested.balancedFrom_append {word : List Char} (nested : Nested word) (depth : Nat)
    (rest : List Char) : balancedFrom depth (word ++ rest) = balancedFrom depth rest := by
  induction nested generalizing depth rest with
  | empty => rfl
  | @group inner after inside behind ihinside ihbehind =>
      calc balancedFrom depth ('\x7b' :: (inner ++ '\x7d' :: after) ++ rest)
          = balancedFrom (depth + 1) (inner ++ '\x7d' :: (after ++ rest)) := by
            rw [List.cons_append, balancedFrom_open, List.append_assoc, List.cons_append]
        _ = balancedFrom depth (after ++ rest) := by rw [ihinside, balancedFrom_close]
        _ = balancedFrom depth rest := ihbehind depth rest

theorem Nested.balanced {word : List Char} (nested : Nested word) : balanced word = true := by
  have hcount := nested.balancedFrom_append 0 []
  rwa [List.append_nil] at hcount

/-! ## Balanced braces are words -/

/-- `ClosesAll depth word`: the word closes `depth` groups one by one, with a word of the grammar in
front of each of these braces and at the end. -/
inductive ClosesAll : Nat → List Char → Prop where
  | last {word : List Char} (nested : Nested word) : ClosesAll 0 word
  | close {depth : Nat} {inner after : List Char} (nested : Nested inner)
      (closes : ClosesAll depth after) : ClosesAll (depth + 1) (inner ++ '\x7d' :: after)

/-- A group can be put in front of what closes the groups around it. -/
theorem ClosesAll.group {depth : Nat} {inner after : List Char} (inside : Nested inner)
    (closes : ClosesAll depth after) : ClosesAll depth ('\x7b' :: (inner ++ '\x7d' :: after)) := by
  cases closes with
  | last nested => exact .last (.group inside nested)
  | @close depth word rest nested closes =>
      have hjoined :
          ClosesAll (depth + 1) ('\x7b' :: (inner ++ '\x7d' :: word) ++ '\x7d' :: rest) :=
        .close (.group inside nested) closes
      simpa using hjoined

theorem closesAll_of_balancedFrom {depth : Nat} {word : List Char}
    (only : ∀ c ∈ word, isBrace c = true) (h : balancedFrom depth word = true) :
    ClosesAll depth word := by
  -- Each opening brace asks for one closing brace more, behind the inside of its group.
  fun_induction balancedFrom depth word with
  | case1 depth =>
      rw [beq_iff_eq.mp h]
      exact .last .empty
  | case2 depth word ih =>
      obtain _ | ⟨inside, closes⟩ := ih (fun c hc => only c (List.mem_cons_of_mem _ hc)) h
      exact .group inside closes
  | case3 word => cases h
  | case4 word hopen depth ih =>
      exact .close .empty (ih (fun c hc => only c (List.mem_cons_of_mem _ hc)) h)
  | case5 depth c word hopen hclose ih =>
      have hbrace := only c List.mem_cons_self
      simp [isBrace, hopen, hclose] at hbrace

/-- The balance check accepts exactly the texts whose braces are a word of the grammar. -/
theorem balanced_iff_nested (text : List Char) :
    balanced text = true ↔ Nested (braces text) := by
  have hbraces : balanced (braces text) = balanced text := balancedFrom_braces 0 text
  rw [← hbraces]
  constructor
  · intro h
    have only : ∀ c ∈ braces text, isBrace c = true := fun c hc => (List.mem_filter.mp hc).2
    cases closesAll_of_balancedFrom only h with
    | last nested => exact nested
  · exact fun nested => nested.balanced

end CInventory.Scan
