import Mathlib
import CInventory.Proofs.PathSteps

/-!
# The names of sources

A path is the path of a source when its last name is a stem, a dot and one of four letters. No
other character becomes one of these letters in lower case, so no other ending is taken for one.
-/

namespace CInventory

/-! ## What becomes an early letter in lower case -/

namespace Text

/-- Behind the capital letters of the alphabet, every character of the table goes above `h`. -/
theorem lowerRuns_tail_above :
    ∀ run ∈ lowerRuns.tail, 0x68 < (run.first : Int) + run.shift := by
  decide +kernel

/-- One of the letters from `a` to `h` comes from itself or from its capital. -/
theorem eq_of_lowerChar {c x : Char} (hx : 0x61 ≤ x.toNat ∧ x.toNat ≤ 0x68)
    (h : lowerChar c = [x]) : c = x ∨ c.toNat + 32 = x.toNat := by
  rw [lowerChar] at h
  split at h
  · cases h
  rcases hfind : lowerRuns.find? (·.covers c.toNat) with _ | run <;> rw [hfind] at h
  · exact .inl (List.cons.inj h).1
  have hcovers := List.find?_some hfind
  have hmem := List.mem_of_find?_eq_some hfind
  simp only [CaseRun.covers, Bool.and_eq_true, decide_eq_true_eq] at hcovers
  -- A code that stands for no character would have become the character zero.
  have hcode : ((c.toNat : Int) + run.shift).toNat = x.toNat := by
    have hchar := congrArg Char.toNat (List.cons.inj h).1
    rw [Char.toNat_ofNat] at hchar
    split at hchar <;> omega
  rw [show lowerRuns = ⟨0x41, 0x5A, 1, 32⟩ :: lowerRuns.tail from rfl, List.mem_cons] at hmem
  rcases hmem with rfl | hmem
  · exact .inr (by dsimp only at hcode; omega)
  · have := lowerRuns_tail_above run hmem
    omega

private theorem lowerChar_ne_nil (c : Char) : lowerChar c ≠ [] := by
  rw [lowerChar]
  split
  · exact List.cons_ne_nil _ _
  · split <;> exact List.cons_ne_nil _ _

private theorem eq_nil_of_lowerFrom {before cs : List Char} (h : lowerFrom before cs = []) :
    cs = [] := by
  cases cs with
  | nil => rfl
  | cons c rest =>
      rw [lowerFrom] at h
      split at h
      · cases h
      · exact absurd (List.append_eq_nil_iff.mp h).1 (lowerChar_ne_nil c)

theorem exists_of_lower {s : String} {x : Char} (hx : 0x61 ≤ x.toNat ∧ x.toNat ≤ 0x68)
    (h : lower s = String.singleton x) : ∃ c, s = String.singleton c ∧ lowerChar c = [x] := by
  have hchars : lowerFrom [] s.toList = [x] := by simpa [lower] using congrArg String.toList h
  rcases hs : s.toList with _ | ⟨c, rest⟩ <;> rw [hs, lowerFrom] at hchars
  · cases hchars
  split at hchars
  · -- A sigma stays above the early letters.
    have hhead := (List.cons.inj hchars).1
    split at hhead <;> subst hhead <;> exact absurd hx.2 (by decide)
  · obtain ⟨hc, hrest⟩ : lowerChar c = [x] ∧ lowerFrom [c] rest = [] := by
      rcases List.append_eq_singleton_iff.mp hchars with ⟨hnil, -⟩ | hsplit
      · exact absurd hnil (lowerChar_ne_nil c)
      · exact hsplit
    refine ⟨c, ?_, hc⟩
    rw [← String.ofList_toList (s := s), hs, eq_nil_of_lowerFrom hrest]
    rfl

end Text

namespace Path

/-! ## Stems and endings -/

/-- The name of a source or a header: a stem, a dot and the letter, small or capital. -/
def IsSourceName (name : String) : Prop :=
  ∃ stem letter, stem ≠ "" ∧ letter ∈ ["c", "C", "h", "H"] ∧ name = stem ++ "." ++ letter

theorem contains_lower_iff {ext : String} :
    sourceExtensions.contains (Text.lower ext) = true ↔ ext ∈ ["c", "C", "h", "H"] := by
  constructor
  · intro h
    obtain ⟨x, hx, hletter, hlower⟩ : ∃ x, (0x61 ≤ Char.toNat x ∧ Char.toNat x ≤ 0x68) ∧
        (x = 'c' ∨ x = 'h') ∧ Text.lower ext = String.singleton x := by
      simp only [sourceExtensions, List.contains_eq_mem, List.mem_cons, List.not_mem_nil, or_false,
        decide_eq_true_eq] at h
      rcases h with h | h
      · exact ⟨'c', by decide, .inl rfl, h⟩
      · exact ⟨'h', by decide, .inr rfl, h⟩
    obtain ⟨c, rfl, hc⟩ := Text.exists_of_lower hx hlower
    have hcapital : ∀ d : Char, d.toNat + 32 = x.toNat → c.toNat + 32 = x.toNat → c = d := by
      intro d hd hc
      rw [← Char.ofNat_toNat c, ← Char.ofNat_toNat d, show c.toNat = d.toNat by omega]
    rcases hletter with rfl | rfl <;> rcases Text.eq_of_lowerChar hx hc with rfl | hup
    · decide
    · rw [hcapital 'C' (by decide) hup]
      decide
    · decide
    · rw [hcapital 'H' (by decide) hup]
      decide
  · intro h
    simp only [List.mem_cons, List.not_mem_nil, or_false] at h
    rcases h with rfl | rfl | rfl | rfl <;> decide +kernel

/-- An extension stands behind the last dot of a name, in front of which there is a stem. -/
theorem extensionOf?_append {stem ext : String} (hstem : stem ≠ "") (hext : '.' ∉ ext.toList) :
    extensionOf? (stem ++ "." ++ ext) = some ext := by
  have hreverse : (stem ++ "." ++ ext).toList.reverse =
      ext.toList.reverse ++ '.' :: stem.toList.reverse := by simp
  have htail : (stem ++ "." ++ ext).toList.reverse.takeWhile (· != '.') = ext.toList.reverse := by
    rw [hreverse, List.takeWhile_append_of_pos, List.takeWhile_cons_of_neg (by simp),
      List.append_nil]
    intro c hc
    have hne : c ≠ '.' := fun heq => hext (heq ▸ List.mem_reverse.mp hc)
    simpa using hne
  have hlength : 0 < stem.toList.length := List.length_pos_iff.mpr (by simpa using hstem)
  rw [extensionOf?, htail, if_pos (by simp only [String.toList_append, List.length_append,
    List.length_reverse, show ".".toList.length = 1 from rfl]; omega)]
  simp

theorem exists_of_extensionOf? {name ext : String} (h : extensionOf? name = some ext) :
    ∃ stem, stem ≠ "" ∧ name = stem ++ "." ++ ext := by
  rw [extensionOf?] at h
  split at h
  case isFalse => cases h
  case isTrue hlength =>
    have hsplit := List.takeWhile_append_dropWhile (p := (· != '.')) (l := name.toList.reverse)
    have hcount := congrArg List.length hsplit
    rw [List.length_append, List.length_reverse] at hcount
    -- What is left in front starts with the dot and goes on.
    rcases hdrop : name.toList.reverse.dropWhile (· != '.') with _ | ⟨dot, _ | ⟨c, rest⟩⟩
    · rw [hdrop] at hcount
      simp only [List.length_nil] at hcount
      omega
    · rw [hdrop] at hcount
      simp only [List.length_cons, List.length_nil] at hcount
      omega
    · have hdot : dot = '.' := by
        have := List.head_dropWhile_not (p := (· != '.')) (l := name.toList.reverse)
          (by rw [hdrop]; exact List.cons_ne_nil _ _)
        simpa [hdrop] using this
      refine ⟨String.ofList (c :: rest).reverse, by simp, ?_⟩
      rw [← Option.some.inj h, ← String.toList_inj]
      have hname := congrArg List.reverse hsplit
      rw [hdrop, hdot, List.reverse_reverse] at hname
      exact hname.symm.trans (by simp)

theorem isSourceName_iff {name : String} :
    IsSourceName name ↔ ∃ ext, extensionOf? name = some ext ∧ ext ∈ ["c", "C", "h", "H"] := by
  constructor
  · rintro ⟨stem, letter, hstem, hletter, rfl⟩
    have hdot : ∀ ext ∈ ["c", "C", "h", "H"], '.' ∉ ext.toList := by decide
    exact ⟨letter, extensionOf?_append hstem (hdot letter hletter), hletter⟩
  · rintro ⟨ext, hext, hletter⟩
    obtain ⟨stem, hstem, rfl⟩ := exists_of_extensionOf? hext
    exact ⟨stem, ext, hstem, hletter, rfl⟩

/-- Whether a path is that of a source depends on its last name only. -/
theorem isSource_iff {path last : String} {front : List String}
    (h : steps path = front ++ [last]) (hup : last ≠ "..") :
    isSource path = true ↔ IsSourceName last := by
  rw [isSource, extension?, fileName?_of_steps h hup, Option.bind_some, isSourceName_iff]
  rcases extensionOf? last with _ | ext
  · simp
  · simp only [contains_lower_iff]
    simp

end Path

end CInventory
