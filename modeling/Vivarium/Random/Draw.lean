import Vivarium.Random.Stream

/-!
Values drawn from a stream. A draw from a range takes words until one falls into the zone in which
every value of the range is equally likely; the number of words is bounded by `patience`, far beyond
what any stream uses. A range that is empty or has no finite width has no draw.
-/
namespace Vivarium.Stream

/-- How many words a draw may reject. The chance of one rejection is at most one half. -/
def patience : Nat := 4096

/-- The upper half of a word. -/
def drawHalf (s : Stream) : UInt32 × Stream :=
  let (w, s) := s.next
  ((w >>> 32).toUInt32, s)

def drawByte (s : Stream) : UInt8 × Stream :=
  let (h, s) := s.drawHalf
  (h.toUInt8, s)

def drawBool (s : Stream) : Bool × Stream :=
  let (h, s) := s.drawHalf
  (h >>> 31 == 1, s)

/-- A multiple of `2 ^ -53` below one. -/
def drawUnit (s : Stream) : Float × Stream :=
  let (w, s) := s.next
  ((w >>> 11).toFloat * .ofBits 0x3ca0000000000000, s)

/-- Where the numbers of a range are drawn from: words below `modulus`, and for every size of range
the end of the zone of words that are not rejected. -/
structure Sampler where
  modulus : Nat
  word : Stream → Nat × Stream
  zone : Nat → Nat

namespace Sampler

/-- The end of the zone that keeps the largest multiple of `range` of the form `range * 2 ^ k`. -/
def shiftZone (bits range : Nat) : Nat := (range <<< (bits - 1 - Nat.log2 range)) - 1

/-- Whole words, for ranges of 64-bit numbers. -/
def wide : Sampler where
  modulus := UInt64.size
  word s := (s.next.1.toNat, s.next.2)
  zone := shiftZone 64

/-- Half words, for ranges of 32-bit numbers. -/
def narrow : Sampler where
  modulus := UInt32.size
  word s := (s.drawHalf.1.toNat, s.drawHalf.2)
  zone := shiftZone 32

/-- Half words for ranges of bytes, whose zone keeps the largest multiple of the range. -/
def byte : Sampler where
  modulus := UInt32.size
  word s := (s.drawHalf.1.toNat, s.drawHalf.2)
  zone range := UInt32.size - 1 - UInt32.size % range

/-- A position among `range` values: the upper part of the product of `range` with the first word
for which the lower part lies in the zone. -/
def position (d : Sampler) (range : Nat) : Nat → Stream → Nat × Stream
  | 0, s => (0, s)
  | n + 1, s =>
    let (w, s) := d.word s
    let product := w * range
    if product % d.modulus ≤ d.zone range then (product / d.modulus, s)
    else d.position range n s

end Sampler

/-- Both ends belong to the range. Where it holds as many numbers as there are words, the word itself
is the number, up to whole turns of the modulus. -/
def drawInt? (d : Sampler) (low high : Int) (s : Stream) : Option (Int × Stream) :=
  if low ≤ high then
    let range := (high - low + 1).toNat
    if range = d.modulus then
      let (w, s) := d.word s
      some (low + (w - low) % d.modulus, s)
    else
      let (n, s) := d.position range patience s
      some (low + n, s)
  else none

/-- A number in `[0, 1)`, a multiple of `2 ^ -52`. -/
def drawFraction (s : Stream) : Float × Stream :=
  let (w, s) := s.next
  (Float.ofBits ((w >>> 12) ||| 0x3ff0000000000000) - 1.0, s)

/-- The first value below `high` among `low` plus fractions of `scale`. -/
def drawBelow (low high scale : Float) : Nat → Stream → Float × Stream
  | 0, s => (low, s)
  | n + 1, s =>
    let (v, s) := s.drawFraction
    let value := v * scale + low
    if value < high then (value, s) else drawBelow low high scale n s

/-- A number from `low`, included, to `high`, not included. -/
def drawFloat? (low high : Float) (s : Stream) : Option (Float × Stream) :=
  let scale := high - low
  if low < high && low.isFinite && high.isFinite && scale.isFinite then
    some (drawBelow low high scale patience s)
  else none

/-- The largest fraction that `drawFraction` yields. -/
def largestFraction : Float := .ofBits 0x3feffffffffffffe

/-- The scale made smaller until the largest fraction of it stays within `high`. -/
def fitScale (low high : Float) : Nat → Float → Float
  | 0, scale => scale
  | n + 1, scale =>
    if high < scale * largestFraction + low then fitScale low high n (.ofBits (scale.toBits - 1))
    else scale

/-- A number from `low` to `high`, both included. -/
def drawFloatUpTo? (low high : Float) (s : Stream) : Option (Float × Stream) :=
  let scale := (high - low) / largestFraction
  if low ≤ high && low.isFinite && high.isFinite && scale.isFinite then
    let (v, s) := s.drawFraction
    some (v * fitScale low high patience scale + low, s)
  else none

/-- True with probability `p`, which is clamped to the unit interval; certainty takes no word. -/
def drawChance (p : Float) (s : Stream) : Bool × Stream :=
  if 1.0 ≤ p then (true, s)
  else
    let (w, s) := s.next
    if 0.0 < p then (w < (p * .ofBits 0x43f0000000000000).toUInt64, s) else (false, s)

/-- The place of one of `count` items. -/
def drawIndex? (count : Nat) (s : Stream) : Option Nat × Stream :=
  if count = 0 then (none, s)
  else
    let (n, s) := Sampler.narrow.position count patience s
    (some n, s)

/-- The first `n` bytes of a number, the lowest first. -/
def littleEndian (w : UInt64) (n : Nat) : List UInt8 :=
  (List.range n).map fun i => (w >>> UInt64.ofNat (8 * i)).toUInt8

/-- Whole words of eight bytes, and for the rest the start of one more word, or of half a word where
four bytes suffice. -/
def drawBytes (count : Nat) (s : Stream) : List UInt8 × Stream :=
  let (words, s) := wordsFrom (count / 8) s
  let rest := count % 8
  if rest = 0 then (words, s)
  else if rest ≤ 4 then
    let (h, s) := s.drawHalf
    (words ++ littleEndian h.toUInt64 rest, s)
  else
    let (w, s) := s.next
    (words ++ littleEndian w rest, s)
where
  wordsFrom : Nat → Stream → List UInt8 × Stream
    | 0, s => ([], s)
    | n + 1, s =>
      let (w, s) := s.next
      let (rest, s) := wordsFrom n s
      (littleEndian w 8 ++ rest, s)

end Vivarium.Stream
