
namespace DocSite.Text

def replacement : Char := '\ufffd'

/-- For a first byte: the bits that it gives to the code point, the closed range of the second
byte, and the number of bytes after the second. -/
def leadByte? (b : UInt8) : Option (Nat × UInt8 × UInt8 × Nat) :=
  if 0xc2 ≤ b ∧ b ≤ 0xdf then some (b.toNat - 0xc0, 0x80, 0xbf, 0)
  else if b = 0xe0 then some (0, 0xa0, 0xbf, 1)
  else if b = 0xed then some (0xd, 0x80, 0x9f, 1)
  else if 0xe1 ≤ b ∧ b ≤ 0xef then some (b.toNat - 0xe0, 0x80, 0xbf, 1)
  else if b = 0xf0 then some (0, 0x90, 0xbf, 2)
  else if 0xf1 ≤ b ∧ b ≤ 0xf3 then some (b.toNat - 0xf0, 0x80, 0xbf, 2)
  else if b = 0xf4 then some (4, 0x80, 0x8f, 2)
  else none

def continues (b : UInt8) : Bool := 0x80 ≤ b && b ≤ 0xbf

mutual

def lossyChars : List UInt8 → List Char
  | [] => []
  | b :: rest =>
    if b < 0x80 then Char.ofNat b.toNat :: lossyChars rest
    else match leadByte? b with
      | none => replacement :: lossyChars rest
      | some (code, low, high, more) =>
        match rest with
        | [] => [replacement]
        | c :: rest =>
          if low ≤ c ∧ c ≤ high then lossyTail (code * 64 + (c.toNat - 0x80)) more rest
          else replacement :: lossyChars (c :: rest)
termination_by bytes => (bytes.length, 1)

/-- Reads the last bytes of a character whose code point begins with `code`. -/
def lossyTail (code : Nat) : Nat → List UInt8 → List Char
  | 0, rest => Char.ofNat code :: lossyChars rest
  | _ + 1, [] => [replacement]
  | more + 1, c :: rest =>
    if continues c then lossyTail (code * 64 + (c.toNat - 0x80)) more rest
    else replacement :: lossyChars (c :: rest)
termination_by _ bytes => (bytes.length, 2)

end

def ofBytes (bytes : ByteArray) : String :=
  (String.fromUTF8? bytes).getD (String.ofList (lossyChars bytes.data.toList))

end DocSite.Text
