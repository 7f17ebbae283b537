import CInventory.Proofs.Positions

/-!
# Boundaries of a text

A byte offset lies on a boundary of a text when some front part of the text has that many bytes.
Front parts of one text are ordered by their bytes, so an offset has at most one front part. The
functions that cut at an offset are described by front parts here.
-/

namespace CInventory.Text

private theorem cutAux_eq_some {taken cs front back : List Char} {count : Nat}
    (h : cutAux taken cs count = some (front, back)) :
    ∃ part, front = taken.reverse ++ part ∧ cs = part ++ back ∧ byteLength part = count := by
  fun_induction cutAux taken cs count with
  | case1 taken cs =>
      simp only [Option.some.injEq, Prod.mk.injEq] at h
      obtain ⟨rfl, rfl⟩ := h
      exact ⟨[], by simp, rfl, rfl⟩
  | case2 => cases h
  | case3 taken c cs count fits ih =>
      obtain ⟨part, rfl, rfl, hpart⟩ := ih h
      refine ⟨c :: part, by simp, rfl, ?_⟩
      rw [byteLength_cons]
      omega
  | case4 => cases h

/-- A text can be cut at the byte lengths of its front parts and nowhere else. -/
theorem cut?_eq_some_iff {cs front back : List Char} {count : Nat} :
    cut? cs count = some (front, back) ↔ cs = front ++ back ∧ byteLength front = count := by
  constructor
  · intro h
    obtain ⟨part, hfront, hcs, hpart⟩ := cutAux_eq_some h
    rw [List.reverse_nil, List.nil_append] at hfront
    rw [hfront]
    exact ⟨hcs, hpart⟩
  · rintro ⟨rfl, rfl⟩
    exact cut?_append front back

theorem cut?_zero (cs : List Char) : cut? cs 0 = some ([], cs) := cut?_append [] cs

theorem slice?_zero_eq_some_iff {cs front : List Char} {cut : Nat} :
    slice? cs 0 cut = some front ↔ ∃ back, cs = front ++ back ∧ byteLength front = cut := by
  have hslice : slice? cs 0 cut = (cut? cs cut).map Prod.fst := by
    cases hcut : cut? cs cut <;> simp [slice?, hcut, cut?_zero]
  rw [hslice, Option.map_eq_some_iff]
  constructor
  · rintro ⟨⟨part, back⟩, hcut, rfl⟩
    exact ⟨back, cut?_eq_some_iff.mp hcut⟩
  · rintro ⟨back, hback⟩
    exact ⟨(front, back), cut?_eq_some_iff.mpr hback, rfl⟩

theorem byteLength_le_of_isPrefix {front cs : List Char} (h : front <+: cs) :
    byteLength front ≤ byteLength cs := by
  obtain ⟨back, rfl⟩ := h
  rw [byteLength_append]
  exact Nat.le_add_right _ _

/-- Of two front parts, the one with no more bytes is a front part of the other. -/
theorem prefix_of_byteLength_le {front longer cs : List Char} (hfront : front <+: cs)
    (hlonger : longer <+: cs) (hle : byteLength front ≤ byteLength longer) : front <+: longer := by
  rcases List.prefix_or_prefix_of_prefix hfront hlonger with h | ⟨more, rfl⟩
  · exact h
  · cases more with
    | nil => simp
    | cons c more =>
        have hpos := c.utf8Size_pos
        rw [byteLength_append, byteLength_cons] at hle
        omega

/-! ## Taking up to an offset -/

/-- What is taken has the bytes that were asked for, or is all there is. -/
theorem takeBytesAux_reaches (taken cs : List Char) (count : Nat) :
    byteLength taken.reverse + min count (byteLength cs) ≤
      byteLength (takeBytesAux taken cs count).1 := by
  fun_induction takeBytesAux taken cs count with
  | case1 taken cs => simp
  | case2 taken count => simp
  | case3 taken c cs count ih =>
      rw [List.reverse_cons, byteLength_append, byteLength_cons, byteLength_nil] at ih
      rw [byteLength_cons]
      omega

theorem takeBytes_reaches (cs : List Char) (count : Nat) :
    min count (byteLength cs) ≤ byteLength (takeBytes cs count).1 := by
  simpa [takeBytes] using takeBytesAux_reaches [] cs count

theorem takeBytesAux_shortest (taken : List Char) {cs front : List Char} {count : Nat}
    (hfront : front <+: cs) (hreach : min count (byteLength cs) ≤ byteLength front) :
    (takeBytesAux taken cs count).1 <+: taken.reverse ++ front := by
  fun_induction takeBytesAux taken cs count generalizing front with
  | case1 taken cs => exact List.prefix_append _ _
  | case2 taken count => exact List.prefix_append _ _
  | case3 taken c cs count ih =>
      have hsize := c.utf8Size_pos
      rw [byteLength_cons] at hreach
      -- Something is asked for, so the front part has the first character too.
      obtain rfl | ⟨tail, rfl, htail⟩ := List.prefix_cons_iff.mp hfront
      · rw [byteLength_nil] at hreach
        omega
      · rw [byteLength_cons] at hreach
        have hrest := ih htail (by omega)
        simpa using hrest

theorem takeBytes_shortest {cs front : List Char} {count : Nat} (hfront : front <+: cs)
    (hreach : min count (byteLength cs) ≤ byteLength front) :
    (takeBytes cs count).1 <+: front := by
  have hshort := takeBytesAux_shortest [] hfront hreach
  simpa [takeBytes] using hshort

end CInventory.Text
