import Mathlib.Data.List.GetD

/-!
# The generator

`std::mt19937_64`, with the parameters of the standard. The generator keeps the last 312
words of a linear recurrence (`window`); one call appends the next of them and returns it
tempered.
-/

namespace FabricSim

namespace Mt19937_64

/-- The words of the state. -/
def stateSize : Nat := 312

def shiftSize : Nat := 156

/-- The first words from the seed, the last one first. -/
def seedWords (seed : UInt64) : Nat → List UInt64
  | 0 => [seed]
  | i + 1 =>
    let words := seedWords seed i
    let x := words.headD 0
    ((6364136223846793005 : UInt64) * (x ^^^ (x >>> 62)) + UInt64.ofNat (i + 1)) :: words

/-- The high bits of one word and the low bits of the next. -/
def joined (x x' : UInt64) : UInt64 := (x &&& 0xFFFFFFFF80000000) ||| (x' &&& 0x7FFFFFFF)

def twist (y : UInt64) : UInt64 := (y >>> 1) ^^^ (if y &&& 1 = 1 then 0xB5026F5AA96619E9 else 0)

/-- The word that follows the last 312. -/
def following (words : List UInt64) : UInt64 :=
  words.getD shiftSize 0 ^^^ twist (joined (words.getD 0 0) (words.getD 1 0))

def temper (x : UInt64) : UInt64 :=
  let x := x ^^^ ((x >>> 29) &&& 0x5555555555555555)
  let x := x ^^^ ((x <<< 17) &&& 0x71D67FFFEDA60000)
  let x := x ^^^ ((x <<< 37) &&& 0xFFF7EEE000000000)
  x ^^^ (x >>> 43)

/-- The last 312 words before call `i`. -/
def window (seed : UInt64) : Nat → List UInt64
  | 0 => (seedWords seed (stateSize - 1)).reverse
  | i + 1 => (window seed i).tail ++ [following (window seed i)]

end Mt19937_64

/-- What call `i` of the generator returns. -/
def mt19937_64 (seed : UInt64) (i : Nat) : UInt64 :=
  Mt19937_64.temper (Mt19937_64.following (Mt19937_64.window seed i))

/-- The first word of the default seed. -/
example : mt19937_64 5489 0 = 14514284786278117030 := by decide +kernel

end FabricSim
