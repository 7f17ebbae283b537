/-!
# Bytes of a text

Offsets into a text count the bytes of its UTF-8 form. The functions here cut a list of
characters at a byte offset, which is possible only between two characters.
-/

namespace CInventory.Text

/-- The number of bytes in the UTF-8 form of a text. -/
def byteLength (cs : List Char) : Nat := cs.foldl (fun n c => n + c.utf8Size) 0

theorem foldl_utf8Size (cs : List Char) (n : Nat) :
    cs.foldl (fun n c => n + c.utf8Size) n = n + byteLength cs := by
  induction cs generalizing n with
  | nil => rfl
  | cons c cs ih =>
      simp only [byteLength, List.foldl_cons] at ih ⊢
      rw [ih, ih (0 + c.utf8Size)]
      omega

@[simp] theorem byteLength_nil : byteLength [] = 0 := rfl

@[simp] theorem byteLength_cons (c : Char) (cs : List Char) :
    byteLength (c :: cs) = c.utf8Size + byteLength cs := by
  rw [byteLength, List.foldl_cons, foldl_utf8Size, Nat.zero_add]

@[simp] theorem byteLength_append (xs ys : List Char) :
    byteLength (xs ++ ys) = byteLength xs + byteLength ys := by
  induction xs with
  | nil => simp
  | cons c xs ih => simp [ih]; omega

theorem byteLength_cons_eq_succ (c : Char) (cs : List Char) :
    ∃ count, byteLength (c :: cs) = count + 1 ∧ count + 1 - c.utf8Size = byteLength cs := by
  have hsize := c.utf8Size_pos
  refine ⟨byteLength (c :: cs) - 1, ?_, ?_⟩ <;> rw [byteLength_cons] <;> omega

/-- A front part of a text is empty or starts with the first character. -/
theorem forall_front_cons_iff {P : List Char → Prop} {c : Char} {cs : List Char} :
    (∀ front, front <+: c :: cs → P front) ↔ P [] ∧ ∀ front, front <+: cs → P (c :: front) := by
  constructor
  · intro h
    refine ⟨h [] List.nil_prefix, ?_⟩
    intro front hfront
    exact h (c :: front) (List.cons_prefix_cons.mpr ⟨rfl, hfront⟩)
  · rintro ⟨hnil, hcons⟩ front hfront
    rcases List.prefix_cons_iff.mp hfront with rfl | ⟨tail, rfl, htail⟩
    · exact hnil
    · exact hcons tail htail

/-- Cut after exactly `count` bytes, with `taken` the characters already passed, last first. -/
def cutAux (taken : List Char) : List Char → Nat → Option (List Char × List Char)
  | cs, 0 => some (taken.reverse, cs)
  | [], _ + 1 => none
  | c :: cs, count + 1 =>
    if c.utf8Size ≤ count + 1 then cutAux (c :: taken) cs (count + 1 - c.utf8Size) else none

/-- The two parts of a text around the byte offset `count`; none when the offset is past the end
or inside a character. -/
def cut? (cs : List Char) (count : Nat) : Option (List Char × List Char) := cutAux [] cs count

/-- The text between two byte offsets; none when they are reversed, out of range or inside a
character. -/
def slice? (cs : List Char) (start stop : Nat) : Option (List Char) := do
  let (front, _) ← cut? cs stop
  let (_, middle) ← cut? front start
  return middle

theorem cutAux_append (taken front back : List Char) :
    cutAux taken (front ++ back) (byteLength front) = some (taken.reverse ++ front, back) := by
  induction front generalizing taken with
  | nil => simp [cutAux]
  | cons c front ih =>
      obtain ⟨count, hcount, hrest⟩ := byteLength_cons_eq_succ c front
      have hfits : c.utf8Size ≤ count + 1 := by
        rw [← hcount, byteLength_cons]
        omega
      rw [hcount, List.cons_append, cutAux, if_pos hfits, hrest, ih]
      simp

/-- A text is cut at the byte length of its front part into that part and the rest. -/
theorem cut?_append (front back : List Char) :
    cut? (front ++ back) (byteLength front) = some (front, back) := by
  rw [cut?, cutAux_append, List.reverse_nil, List.nil_append]

theorem slice?_append (front middle back : List Char) :
    slice? (front ++ middle ++ back) (byteLength front) (byteLength (front ++ middle)) =
      some middle := by
  unfold slice?
  rw [cut?_append (front ++ middle) back]
  simp [cut?_append]

/-- The characters in front of the first boundary at or past `count` bytes, and the rest. -/
def takeBytesAux (taken : List Char) : List Char → Nat → List Char × List Char
  | cs, 0 => (taken.reverse, cs)
  | [], _ + 1 => (taken.reverse, [])
  | c :: cs, count + 1 => takeBytesAux (c :: taken) cs (count + 1 - c.utf8Size)

def takeBytes (cs : List Char) (count : Nat) : List Char × List Char := takeBytesAux [] cs count

theorem takeBytesAux_whole (taken cs : List Char) (count : Nat) :
    (takeBytesAux taken cs count).1 ++ (takeBytesAux taken cs count).2 = taken.reverse ++ cs := by
  fun_induction takeBytesAux taken cs count with
  | case1 => rfl
  | case2 => rfl
  | case3 taken c cs count ih => simpa using ih

/-- What is taken and what is left make up the text. -/
theorem takeBytes_whole (cs : List Char) (count : Nat) :
    (takeBytes cs count).1 ++ (takeBytes cs count).2 = cs := by
  simpa [takeBytes] using takeBytesAux_whole [] cs count

theorem takeBytesAux_append (taken front back : List Char) :
    takeBytesAux taken (front ++ back) (byteLength front) = (taken.reverse ++ front, back) := by
  induction front generalizing taken with
  | nil => simp [takeBytesAux]
  | cons c front ih =>
      obtain ⟨count, hcount, hrest⟩ := byteLength_cons_eq_succ c front
      rw [hcount, List.cons_append, takeBytesAux, hrest, ih]
      simp

theorem takeBytes_append (front back : List Char) :
    takeBytes (front ++ back) (byteLength front) = (front, back) := by
  rw [takeBytes, takeBytesAux_append, List.reverse_nil, List.nil_append]

/-! ## Texts within a bound -/

theorem utf8ByteSize_ofList (cs : List Char) :
    (String.ofList cs).utf8ByteSize = byteLength cs := by
  induction cs with
  | nil => rfl
  | cons c cs ih =>
      rw [byteLength_cons, String.ofList_cons, String.utf8ByteSize_append,
        String.utf8ByteSize_singleton, ih]

theorem byteLength_toList (s : String) : byteLength s.toList = s.utf8ByteSize := by
  rw [← utf8ByteSize_ofList, String.ofList_toList]

/-- Whether an offset lies between two characters or at an end of the text, by the byte there. -/
def isBoundary (s : String) (offset : Nat) : Bool := String.Pos.Raw.isValid s ⟨offset⟩

/-- The boundaries are the ends of the front parts of the text. -/
theorem isBoundary_iff {s : String} {offset : Nat} :
    isBoundary s offset = true ↔
      ∃ front back, s.toList = front ++ back ∧ byteLength front = offset := by
  rw [isBoundary, String.Pos.Raw.isValid_eq_true_iff, String.Pos.Raw.isValid_iff_exists_append]
  constructor
  · rintro ⟨front, back, rfl, hend⟩
    refine ⟨front.toList, back.toList, String.toList_append, ?_⟩
    rw [byteLength_toList]
    exact (congrArg String.Pos.Raw.byteIdx hend).symm
  · rintro ⟨front, back, hsplit, rfl⟩
    refine ⟨String.ofList front, String.ofList back, ?_, ?_⟩
    · rw [← String.ofList_append, ← hsplit, String.ofList_toList]
    · rw [← utf8ByteSize_ofList]
      rfl

/-- The last boundary that is not behind `offset`, sought byte by byte towards the front; none when
the front of the text is passed. -/
def boundaryBefore? (s : String) : Nat → Option Nat
  | 0 => if isBoundary s 0 then some 0 else none
  | offset + 1 =>
    if isBoundary s (offset + 1) then some (offset + 1) else boundaryBefore? s offset

/-- The search ends at a boundary, and passes none. -/
theorem exists_boundaryBefore? (s : String) (offset : Nat) :
    ∃ cut, boundaryBefore? s offset = some cut ∧ isBoundary s cut = true ∧ cut ≤ offset ∧
      ∀ other ≤ offset, isBoundary s other = true → other ≤ cut := by
  induction offset with
  | zero =>
      have hfront : isBoundary s 0 = true := isBoundary_iff.mpr ⟨[], s.toList, rfl, rfl⟩
      exact ⟨0, if_pos hfront, hfront, Nat.le_refl 0, fun other hle _ => hle⟩
  | succ offset ih =>
      rw [boundaryBefore?]
      by_cases hhere : isBoundary s (offset + 1) = true
      · exact ⟨offset + 1, if_pos hhere, hhere, Nat.le_refl _, fun other hle _ => hle⟩
      · obtain ⟨cut, hcut, hboundary, hle, hlast⟩ := ih
        refine ⟨cut, ?_, hboundary, Nat.le_succ_of_le hle, ?_⟩
        · rw [if_neg hhere, hcut]
        · intro other hother hat
          have hne : other ≠ offset + 1 := by
            rintro rfl
            exact hhere hat
          exact hlast other (by omega) hat

/-- The text up to the last boundary within `limit` bytes, marked with dots; none when there is no
such boundary or a character would be cut. -/
def shortened? (limit : Nat) (s : String) : Option String := do
  let cut ← boundaryBefore? s limit
  let front ← slice? s.toList 0 cut
  return String.ofList front ++ "..."

/-- There is always a shortened text, since a text can be cut at its boundaries. -/
theorem exists_shortened? (limit : Nat) (s : String) :
    ∃ cut front, boundaryBefore? s limit = some cut ∧ slice? s.toList 0 cut = some front ∧
      shortened? limit s = some (String.ofList front ++ "...") := by
  obtain ⟨cut, hcut, hboundary, -, -⟩ := exists_boundaryBefore? s limit
  obtain ⟨front, back, hsplit, hbytes⟩ := isBoundary_iff.mp hboundary
  have hslice : slice? s.toList 0 cut = some front := by
    have hfront := slice?_append [] front back
    rwa [List.nil_append, ← hsplit, hbytes, byteLength_nil] at hfront
  refine ⟨cut, front, hcut, hslice, ?_⟩
  simp [shortened?, hcut, hslice]

theorem isSome_shortened? (limit : Nat) (s : String) : (shortened? limit s).isSome = true := by
  obtain ⟨cut, front, -, -, hshort⟩ := exists_shortened? limit s
  rw [hshort]
  rfl

/-- A text of at most `limit` bytes as it is; a longer one shortened. -/
def bounded (limit : Nat) (s : String) : String :=
  if s.utf8ByteSize ≤ limit then s else (shortened? limit s).get (isSome_shortened? limit s)

end CInventory.Text
