namespace FeatureFile.Text

def byteLength : List Char → Nat
  | [] => 0
  | c :: rest => c.utf8Size + byteLength rest

def byteOrderMark : Char := '\ufeff'

def stripMark : List Char → List Char
  | [] => []
  | c :: rest => if c = byteOrderMark then rest else c :: rest

namespace Utf8

def isTail (b : UInt8) : Bool :=
  0x80 ≤ b && b ≤ 0xBF

def isSecondOfThree (a b : UInt8) : Bool :=
  isTail b && 0xE0 ≤ a && a ≤ 0xEF && (a != 0xE0 || 0xA0 ≤ b) && (a != 0xED || b ≤ 0x9F)

def isSecondOfFour (a b : UInt8) : Bool :=
  isTail b && 0xF0 ≤ a && a ≤ 0xF4 && (a != 0xF0 || 0x90 ≤ b) && (a != 0xF4 || b ≤ 0x8F)

def payload (b : UInt8) : Nat :=
  b.toNat % 64

def two (a b : UInt8) : Char :=
  Char.ofNat (a.toNat % 32 * 64 + payload b)

def three (a b c : UInt8) : Char :=
  Char.ofNat ((a.toNat % 16 * 64 + payload b) * 64 + payload c)

def four (a b c d : UInt8) : Char :=
  Char.ofNat (((a.toNat % 8 * 64 + payload b) * 64 + payload c) * 64 + payload d)

/-- Reads whole characters; an error tells where the first one that is not well formed begins,
counted on from `offset`. -/
def decodeFrom (offset : Nat) : List UInt8 → Except Nat (List Char)
  | [] => .ok []
  | a :: rest =>
    if a < 0x80 then (Char.ofNat a.toNat :: ·) <$> decodeFrom (offset + 1) rest
    else match rest with
    | [] => .error offset
    | b :: rest =>
      if 0xC2 ≤ a && a ≤ 0xDF && isTail b then (two a b :: ·) <$> decodeFrom (offset + 2) rest
      else match rest with
      | [] => .error offset
      | c :: rest =>
        if isSecondOfThree a b && isTail c then (three a b c :: ·) <$> decodeFrom (offset + 3) rest
        else match rest with
        | [] => .error offset
        | d :: rest =>
          if isSecondOfFour a b && isTail c && isTail d then
            (four a b c d :: ·) <$> decodeFrom (offset + 4) rest
          else .error offset

def decode (bytes : List UInt8) : Except Nat (List Char) :=
  decodeFrom 0 bytes

end Utf8

end FeatureFile.Text
