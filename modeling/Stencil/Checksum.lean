/-! The CRC-32 checksum of a byte sequence.

The polynomial is the reflected `0xEDB88320`; the register starts with all bits set and is inverted at the end.
-/

set_option autoImplicit false

namespace Stencil.Checksum

/-- One bit of the division: shift right, and subtract the polynomial when a one falls out. -/
def shiftBit (register : UInt32) : UInt32 :=
  if register &&& 1 = 1 then (register >>> 1) ^^^ 0xEDB88320 else register >>> 1

def feed (register : UInt32) (byte : UInt8) : UInt32 :=
  Nat.repeat shiftBit 8 (register ^^^ byte.toUInt32)

def crc32 (bytes : List UInt8) : UInt32 := bytes.foldl feed 0xFFFFFFFF ^^^ 0xFFFFFFFF

def ofText (s : String) : UInt32 := crc32 (s.toList.flatMap String.utf8EncodeChar)

def hex (sum : UInt32) : String :=
  let digits := Nat.toDigits 16 sum.toNat
  String.ofList (List.replicate (8 - digits.length) '0' ++ digits)

@[simp] theorem length_hex (sum : UInt32) : (hex sum).length = 8 := by
  have bound : sum.toNat < 16 ^ 8 := sum.toNat_lt
  have short := (Nat.length_toDigits_le_iff (by decide) (by decide)).2 bound
  simp only [hex, String.length_ofList, List.length_append, List.length_replicate]
  omega

end Stencil.Checksum
