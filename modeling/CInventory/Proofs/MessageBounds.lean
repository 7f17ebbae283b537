import Mathlib
import CInventory.Diagnostic.Event
import CInventory.Proofs.Boundaries

/-!
# Messages within their bound

A message with too many bytes is cut at the last boundary within the bound. Between that boundary
and the bound lies part of one character, so the search for it passes three bytes at most, and what
is kept is the longest front part of the message that fits.
-/

namespace CInventory.Text

structure LongestWithin (limit : Nat) (cs front : List Char) : Prop where
  part : front <+: cs
  fits : byteLength front ≤ limit
  longest : ∀ other, other <+: cs → byteLength other ≤ limit → other <+: front

variable {limit cut : Nat} {cs front : List Char} {s : String}

/-- Behind the longest front part stands a character that does not fit, and that has four bytes at
most. -/
theorem LongestWithin.limit_le (h : LongestWithin limit cs front)
    (long : limit < byteLength cs) : limit ≤ byteLength front + 3 := by
  obtain ⟨back, rfl⟩ := h.part
  cases back with
  | nil =>
      have hfits := h.fits
      rw [List.append_nil] at long
      omega
  | cons c back =>
      have hnext : limit < byteLength (front ++ [c]) := by
        by_contra hfits
        have hpart := h.longest (front ++ [c]) ⟨back, by simp⟩ (Nat.not_lt.mp hfits)
        have hlength := hpart.length_le
        rw [List.length_append, List.length_singleton] at hlength
        omega
      have hsize := c.utf8Size_le_four
      rw [byteLength_append, byteLength_cons, byteLength_nil] at hnext
      omega

theorem isGreatest_boundaryBefore? (h : boundaryBefore? s limit = some cut) :
    IsGreatest {offset | offset ≤ limit ∧ isBoundary s offset = true} cut := by
  obtain ⟨found, hfound, hboundary, hle, hlast⟩ := exists_boundaryBefore? s limit
  obtain rfl : found = cut := Option.some.inj (hfound.symm.trans h)
  exact ⟨⟨hle, hboundary⟩, fun other hother => hlast other hother.1 hother.2⟩

/-- Cutting at the last boundary within the limit keeps the longest front part that fits. -/
theorem longestWithin_of_boundaryBefore? (hcut : boundaryBefore? s limit = some cut)
    (hslice : slice? s.toList 0 cut = some front) : LongestWithin limit s.toList front := by
  obtain ⟨back, hsplit, rfl⟩ := slice?_zero_eq_some_iff.mp hslice
  have hgreatest := isGreatest_boundaryBefore? hcut
  refine ⟨⟨back, hsplit.symm⟩, hgreatest.1.1, ?_⟩
  rintro other ⟨rest, hother⟩ hfits
  apply prefix_of_byteLength_le ⟨rest, hother⟩ ⟨back, hsplit.symm⟩
  exact hgreatest.2 ⟨hfits, isBoundary_iff.mpr ⟨other, rest, hother.symm, rfl⟩⟩

theorem bounded_of_le (short : s.utf8ByteSize ≤ limit) : bounded limit s = s := if_pos short

private theorem exists_bounded (long : limit < s.utf8ByteSize) :
    ∃ cut front, boundaryBefore? s limit = some cut ∧ slice? s.toList 0 cut = some front ∧
      bounded limit s = String.ofList front ++ "..." := by
  obtain ⟨cut, front, hcut, hslice, hshort⟩ := exists_shortened? limit s
  refine ⟨cut, front, hcut, hslice, ?_⟩
  rw [bounded, if_neg (Nat.not_le.mpr long)]
  exact Option.get_of_eq_some _ hshort

theorem utf8ByteSize_bounded_le (limit : Nat) (s : String) :
    (bounded limit s).utf8ByteSize ≤ limit + 3 := by
  rcases Nat.lt_or_ge limit s.utf8ByteSize with long | short
  · obtain ⟨cut, front, hcut, hslice, hbounded⟩ := exists_bounded long
    have hfits := (longestWithin_of_boundaryBefore? hcut hslice).fits
    have hdots : "...".utf8ByteSize = 3 := rfl
    rw [hbounded, String.utf8ByteSize_append, utf8ByteSize_ofList, hdots]
    omega
  · rw [bounded_of_le short]
    omega

end CInventory.Text

namespace CInventory.Diagnostic.Event

open Text

/-- A message within the bound is kept. A longer one is cut behind its longest front part that is
within the bound; the search for the cut finds the last boundary, three bytes back at most, and
the message can be cut there. With its dots it is at most three bytes over the bound. -/
theorem message_bounded (limits : Limits) (level : Level) (code message : String) :
    (message.utf8ByteSize ≤ limits.maxMessageLength →
      (make limits level code message).message = message) ∧
    (limits.maxMessageLength < message.utf8ByteSize →
      ∃ cut front, boundaryBefore? message limits.maxMessageLength = some cut ∧
        IsGreatest {offset | offset ≤ limits.maxMessageLength ∧ isBoundary message offset = true}
          cut ∧
        limits.maxMessageLength - cut ≤ 3 ∧
        slice? message.toList 0 cut = some front ∧
        LongestWithin limits.maxMessageLength message.toList front ∧
        (make limits level code message).message = String.ofList front ++ "...") ∧
    (make limits level code message).message.utf8ByteSize ≤ limits.maxMessageLength + 3 := by
  refine ⟨bounded_of_le, ?_, utf8ByteSize_bounded_le _ _⟩
  intro long
  obtain ⟨cut, front, hcut, hslice, hmessage⟩ := exists_bounded long
  have hlongest := longestWithin_of_boundaryBefore? hcut hslice
  have hback : limits.maxMessageLength - cut ≤ 3 := by
    obtain ⟨back, -, hbytes⟩ := slice?_zero_eq_some_iff.mp hslice
    rw [← byteLength_toList] at long
    have hlimit := hlongest.limit_le long
    omega
  exact ⟨cut, front, hcut, isGreatest_boundaryBefore? hcut, hback, hslice, hlongest, hmessage⟩

/-- Sixteen bytes are kept as they are. A character of four bytes of which three are within the
bound is cut off whole. -/
theorem message_bounded_insideCharacter :
    "no such file a.c".utf8ByteSize ≤ 16 ∧
    (make { Limits.development with maxMessageLength := 16 } .error "E005"
      "no such file a.c").message = "no such file a.c" ∧
    16 < "no such file 𝔞.c".utf8ByteSize ∧
    boundaryBefore? "no such file 𝔞.c" 16 = some 13 ∧
    (make { Limits.development with maxMessageLength := 16 } .error "E005"
      "no such file 𝔞.c").message = "no such file ..." := by
  have hshort : "no such file a.c".utf8ByteSize ≤ 16 := by decide
  have hlong : 16 < "no such file 𝔞.c".utf8ByteSize := by decide
  have hfound : boundaryBefore? "no such file 𝔞.c" 16 = some 13 := by decide +kernel
  have hbounds := message_bounded { Limits.development with maxMessageLength := 16 } .error "E005"
  obtain ⟨cut, front, hcut, -, -, hslice, -, hmessage⟩ := (hbounds "no such file 𝔞.c").2.1 hlong
  refine ⟨hshort, (hbounds "no such file a.c").1 hshort, hlong, hfound, ?_⟩
  obtain rfl : 13 = cut := Option.some.inj (hfound.symm.trans hcut)
  have hfront : slice? "no such file 𝔞.c".toList 0 13 = some "no such file ".toList := by
    decide +kernel
  rw [hmessage, Option.some.inj (hslice.symm.trans hfront)]
  decide +kernel

end CInventory.Diagnostic.Event
