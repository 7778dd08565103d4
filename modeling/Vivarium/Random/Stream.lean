import Vivarium.AgentId

/-!
Streams of random words: the generator xoshiro256++, and the seeds from which the streams of a run
and of its agents start. The stream of an agent rests on the seed of the run and the agent's id
alone.
-/
namespace Vivarium

/-- The state of the generator, four words. -/
structure Stream where
  s0 : UInt64
  s1 : UInt64
  s2 : UInt64
  s3 : UInt64
  deriving DecidableEq

namespace Stream

def rotateLeft (w count : UInt64) : UInt64 := (w <<< count) ||| (w >>> (64 - count))

/-- One word, and the stream after it. -/
def next (s : Stream) : UInt64 × Stream :=
  let word := rotateLeft (s.s0 + s.s3) 23 + s.s0
  let t := s.s1 <<< 17
  let s2 := s.s2 ^^^ s.s0
  let s3 := s.s3 ^^^ s.s1
  let s1 := s.s1 ^^^ s2
  let s0 := s.s0 ^^^ s3
  (word, ⟨s0, s1, s2 ^^^ t, rotateLeft s3 45⟩)

/-- The linear congruential step that spreads a seed. -/
def seedStep (state : UInt64) : UInt64 := state * 6364136223846793005 + 11634580027462260723

/-- The half word read off a seeding state: its upper bits, mixed and rotated. -/
def seedHalf (state : UInt64) : UInt64 :=
  let mixed := (((state >>> 18) ^^^ state) >>> 27).toUInt32
  let turn := (state >>> 59).toUInt32
  ((mixed >>> turn) ||| (mixed <<< (32 - turn))).toUInt64

/-- One word of a seed, its lower half first, and the seeding state after it. -/
def seedWord (state : UInt64) : UInt64 × UInt64 :=
  let low := seedStep state
  let high := seedStep low
  (seedHalf low ||| (seedHalf high <<< 32), high)

/-- The state that stands in for four zero words, which would never change. -/
def fallback : Stream :=
  ⟨0xe220a8397b1dcdaf, 0x6e789e6aa1b965f4, 0x06c45d188009454f, 0xf88bb8a8724c81ec⟩

def ofSeed (seed : UInt64) : Stream :=
  let (s0, seed) := seedWord seed
  let (s1, seed) := seedWord seed
  let (s2, seed) := seedWord seed
  let (s3, _) := seedWord seed
  if s0 ||| s1 ||| s2 ||| s3 = 0 then fallback else ⟨s0, s1, s2, s3⟩

/-- Consecutive ids are spread over the seeds by an odd multiplier. -/
def agentSeed (seed : UInt64) (agent : AgentId) : UInt64 :=
  seed ^^^ (agent.val.toUInt64 * 0x9e3779b97f4a7c15)

def ofAgent (seed : UInt64) (agent : AgentId) : Stream := ofSeed (agentSeed seed agent)

/-- The stream of storage that belongs to no agent. -/
def dormant : Stream := ofAgent 0 .invalid

end Stream
end Vivarium
