/-!
# Cyclic redundancy check of thirty-two bits

The remainder of a message under division by the polynomial `0x04C11DB7`, with the bits of each
byte taken least significant first.  In that reflected form the polynomial is `0xEDB88320` and
dividing by one power of `x` is a shift to the right.  The remainder starts as all ones and is
complemented at the end.

## Main definitions

* `Crc32.divideBit`: one step of the division.
* `Crc32.feed`, `Crc32.feedAll`: a byte, and a run of bytes.
* `Crc32.checksum`: the check value of a message.

## Main statements

* `Crc32.feedAll_append`: feeding two runs in turn is feeding their concatenation.
-/

namespace Nes.Crc32

/-- The generator polynomial, lowest power in the highest bit. -/
def polynomial : UInt32 := 0xEDB88320

/-- Divides a remainder by one power of `x`. -/
@[inline] def divideBit (r : UInt32) : UInt32 :=
  if r &&& 1 = 0 then r >>> 1 else (r >>> 1) ^^^ polynomial

/-- Divides a remainder by eight powers of `x`. -/
@[inline] def divideByte (r : UInt32) : UInt32 :=
  divideBit <| divideBit <| divideBit <| divideBit <|
    divideBit <| divideBit <| divideBit <| divideBit r

/-- The remainder after one more byte of the message. -/
@[inline] def feed (r : UInt32) (byte : UInt8) : UInt32 :=
  divideByte (r ^^^ byte.toUInt32)

/-- The remainder after some more bytes of the message. -/
def feedAll (r : UInt32) (bytes : Array UInt8) : UInt32 :=
  bytes.foldl feed r

/-- The remainder before any byte of a message. -/
def start : UInt32 := 0xFFFFFFFF

/-- The check value that belongs to a remainder. -/
def finish (r : UInt32) : UInt32 := ~~~r

/-- The check value of a message. -/
def checksum (bytes : Array UInt8) : UInt32 := finish (feedAll start bytes)

@[simp] theorem feedAll_empty (r : UInt32) : feedAll r #[] = r := rfl

theorem feedAll_append (r : UInt32) (xs ys : Array UInt8) :
    feedAll r (xs ++ ys) = feedAll (feedAll r xs) ys := by
  simp [feedAll]

/-- The check value of the nine digits, by which implementations of this check are told apart. -/
example : checksum "123456789".toUTF8.data = 0xCBF43926 := by decide +kernel

end Nes.Crc32
