/-!
# Comments

A line comment ends before the next line feed. A block comment ends with the first closer behind
its opener; without one it runs to the end of the text.
-/

namespace CInventory.Scan

def isNotLineFeed (c : Char) : Bool := c != '\n'

/-- The line comment at the front of a text, and the rest. -/
def lineComment? : List Char → Option (List Char × List Char)
  | '/' :: '/' :: rest =>
    some ('/' :: '/' :: rest.takeWhile isNotLineFeed, rest.dropWhile isNotLineFeed)
  | _ => none

/-- The text through the first closer, with the characters of `taken` already passed. -/
def closerAux (taken : List Char) : List Char → Option (List Char × List Char)
  | [] => none
  | c :: cs =>
    match c, cs with
    | '*', '/' :: rest => some (('/' :: '*' :: taken).reverse, rest)
    | c, cs => closerAux (c :: taken) cs

structure BlockComment where
  text : List Char
  closed : Bool
  rest : List Char

/-- The block comment at the front of a text. -/
def blockComment? : List Char → Option BlockComment
  | '/' :: '*' :: cs =>
    match closerAux [] cs with
    | some (body, rest) => some ⟨'/' :: '*' :: body, true, rest⟩
    | none => some ⟨'/' :: '*' :: cs, false, []⟩
  | _ => none

theorem closerAux_append {taken cs body rest : List Char}
    (h : closerAux taken cs = some (body, rest)) : body ++ rest = taken.reverse ++ cs := by
  fun_induction closerAux taken cs with
  | case1 => simp at h
  | case2 taken rest' =>
      simp only [Option.some.injEq, Prod.mk.injEq] at h
      obtain ⟨rfl, rfl⟩ := h
      simp
  | case3 taken c cs _ ih => simpa using ih h

theorem lineComment?_append {cs text rest : List Char} (h : lineComment? cs = some (text, rest)) :
    text ++ rest = cs := by
  unfold lineComment? at h
  split at h
  · simp only [Option.some.injEq, Prod.mk.injEq] at h
    obtain ⟨rfl, rfl⟩ := h
    simp
  · simp at h

theorem blockComment?_append {cs : List Char} {b : BlockComment} (h : blockComment? cs = some b) :
    b.text ++ b.rest = cs := by
  unfold blockComment? at h
  split at h
  · split at h
    · next body rest hc =>
        cases h
        simpa using closerAux_append hc
    · cases h
      simp
  · simp at h

theorem lineComment?_ne_nil {cs text rest : List Char} (h : lineComment? cs = some (text, rest)) :
    text ≠ [] := by
  unfold lineComment? at h
  split at h
  · cases h
    simp
  · cases h

theorem blockComment?_ne_nil {cs : List Char} {b : BlockComment} (h : blockComment? cs = some b) :
    b.text ≠ [] := by
  unfold blockComment? at h
  split at h
  · split at h <;> cases h <;> simp
  · cases h

end CInventory.Scan
