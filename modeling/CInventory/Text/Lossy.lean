/-!
# Damaged text

Bytes as text when some of them are no UTF-8: each longest start of a character that is not
completed, and each byte that starts none, is shown as a replacement character.
-/

namespace CInventory.Text

def replacement : Char := '\ufffd'

/-- How a character that starts with a byte goes on: the number of further bytes, the bounds of
the first of them, and the bits that the first byte gives. -/
structure Lead where
  more : Nat
  low : Nat
  high : Nat
  bits : Nat

def lead? (b : Nat) : Option Lead :=
  if b < 0x80 then some ⟨0, 0, 0, b⟩
  else if 0xc2 ≤ b && b ≤ 0xdf then some ⟨1, 0x80, 0xbf, b - 0xc0⟩
  else if b = 0xe0 then some ⟨2, 0xa0, 0xbf, 0⟩
  else if b = 0xed then some ⟨2, 0x80, 0x9f, 0xd⟩
  else if 0xe1 ≤ b && b ≤ 0xef then some ⟨2, 0x80, 0xbf, b - 0xe0⟩
  else if b = 0xf0 then some ⟨3, 0x90, 0xbf, 0⟩
  else if b = 0xf4 then some ⟨3, 0x80, 0x8f, 4⟩
  else if 0xf1 ≤ b && b ≤ 0xf3 then some ⟨3, 0x80, 0xbf, b - 0xf0⟩
  else none

/-- The text of the bytes behind `done`, which is listed last first. A character is under way
while `more` bytes are missing, the next of them between `low` and `high`. -/
def decodeAux (done : List Char) (more low high bits : Nat) : List UInt8 → List Char
  | [] => (if more = 0 then done else replacement :: done).reverse
  | b :: rest =>
    let n := b.toNat
    if more != 0 && low ≤ n && n ≤ high then
      let bits := bits * 64 + (n - 0x80)
      if more = 1 then decodeAux (Char.ofNat bits :: done) 0 0 0 0 rest
      else decodeAux done (more - 1) 0x80 0xbf bits rest
    else
      let done := if more = 0 then done else replacement :: done
      match lead? n with
      | none => decodeAux (replacement :: done) 0 0 0 0 rest
      | some l =>
        if l.more = 0 then decodeAux (Char.ofNat l.bits :: done) 0 0 0 0 rest
        else decodeAux done l.more l.low l.high l.bits rest

def decodeLossy (bytes : List UInt8) : String := String.ofList (decodeAux [] 0 0 0 0 bytes)

end CInventory.Text
