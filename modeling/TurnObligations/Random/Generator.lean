import TurnObligations.Fault

/-!
Seeded random draws. The key stream is made by the ChaCha block function with eight rounds; its words
are used in order, indices are drawn without bias, and lists are shuffled by swaps from the back.
-/

namespace TurnObligations

namespace Random

/-! A key, a block counter of 64 bits and a zero stream number make sixteen words. -/

abbrev Block := Vector UInt32 16

def rotateLeft (word amount : UInt32) : UInt32 :=
  (word <<< amount) ||| (word >>> (32 - amount))

def quarterRound (a b c d : Fin 16) (state : Block) : Block :=
  let state := state.set a (state.get a + state.get b)
  let state := state.set d (rotateLeft (state.get d ^^^ state.get a) 16)
  let state := state.set c (state.get c + state.get d)
  let state := state.set b (rotateLeft (state.get b ^^^ state.get c) 12)
  let state := state.set a (state.get a + state.get b)
  let state := state.set d (rotateLeft (state.get d ^^^ state.get a) 8)
  let state := state.set c (state.get c + state.get d)
  state.set b (rotateLeft (state.get b ^^^ state.get c) 7)

def columnRound (state : Block) : Block :=
  quarterRound 3 7 11 15 (quarterRound 2 6 10 14 (quarterRound 1 5 9 13
    (quarterRound 0 4 8 12 state)))

def diagonalRound (state : Block) : Block :=
  quarterRound 3 4 9 14 (quarterRound 2 7 8 13 (quarterRound 1 6 11 12
    (quarterRound 0 5 10 15 state)))

def doubleRounds : Nat → Block → Block
  | 0, state => state
  | count + 1, state => doubleRounds count (diagonalRound (columnRound state))

def constants : Vector UInt32 4 := #v[0x61707865, 0x3320646e, 0x79622d32, 0x6b206574]

def initialBlock (key : Vector UInt32 8) (counter : UInt64) : Block :=
  let position : Vector UInt32 4 := #v[counter.toUInt32, (counter >>> 32).toUInt32, 0, 0]
  constants ++ key ++ position

def block (key : Vector UInt32 8) (counter : UInt64) : Block :=
  let initial := initialBlock key counter
  initial.zipWith (· + ·) (doubleRounds 4 initial)

end Random

structure Generator where
  key : Vector UInt32 8
  drawn : Nat
deriving DecidableEq

namespace Generator

def seedWord (state : UInt64) : UInt32 :=
  let mixed := (((state >>> 18) ^^^ state) >>> 27).toUInt32
  let amount := (state >>> 59).toUInt32
  (mixed >>> amount) ||| (mixed <<< ((32 - amount) % 32))

def seedStep (state : UInt64) : UInt64 := state * 6364136223846793005 + 11634580027462260723

def seedStates : Nat → UInt64 → List UInt64
  | 0, _ => []
  | count + 1, state => seedStep state :: seedStates count (seedStep state)

def ofSeed (seed : UInt64) : Generator :=
  let words := ((seedStates 8 seed).map seedWord).toArray
  ⟨Vector.ofFn fun index => words.getD index 0, 0⟩

def nextWord (generator : Generator) : UInt32 × Generator :=
  let words := Random.block generator.key (UInt64.ofNat (generator.drawn / 16))
  (words.get ⟨generator.drawn % 16, Nat.mod_lt _ (by decide)⟩,
    { generator with drawn := generator.drawn + 1 })

def draw32 (generator : Generator) : Nat × Generator :=
  let (word, generator) := generator.nextWord
  (word.toNat, generator)

def draw64 (generator : Generator) : Nat × Generator :=
  let (low, generator) := generator.nextWord
  let (high, generator) := generator.nextWord
  (low.toNat + UInt32.size * high.toNat, generator)

/-- The largest low half of a product that is accepted: every result below `bound` then has as many
draws as any other. -/
def acceptance (width bound : Nat) : Nat := (bound <<< (width - (bound.log2 + 1))) - 1

/-- A result below `bound` from draws of `width` bits. After `fuel` rejections the next draw is
taken as it comes. -/
def below (width : Nat) (draw : Generator → Nat × Generator) (bound : Nat) :
    (fuel : Nat) → Generator → Nat × Generator
  | 0, generator =>
      let (word, generator) := draw generator
      ((word * bound) >>> width, generator)
  | fuel + 1, generator =>
      let (word, generator) := draw generator
      if word * bound % (1 <<< width) ≤ acceptance width bound then
        ((word * bound) >>> width, generator)
      else below width draw bound fuel generator

/-- Half the draws at least are accepted, so that this many rejections in a row do not happen. -/
def maxRejections : Nat := 4096

def index (bound : Nat) (generator : Generator) : Except Fault (Nat × Generator) :=
  if bound = 0 then .error .emptyRange
  else .ok (below 64 draw64 bound maxRejections generator)

def swapIndex (bound : Nat) (generator : Generator) : Nat × Generator :=
  if bound < UInt32.size then below 32 draw32 bound maxRejections generator
  else below 64 draw64 bound maxRejections generator

def shuffleFrom {α : Type} : (last : Nat) → Array α → Generator → Array α × Generator
  | 0, items, generator => (items, generator)
  | last + 1, items, generator =>
      let (other, generator) := generator.swapIndex (last + 2)
      shuffleFrom last (items.swapIfInBounds (last + 1) other) generator

def shuffle {α : Type} (items : List α) (generator : Generator) : List α × Generator :=
  let (shuffled, generator) := shuffleFrom (items.length - 1) items.toArray generator
  (shuffled.toList, generator)

theorem draw64_lt (generator : Generator) : (draw64 generator).1 < 1 <<< 64 := by
  have low := generator.nextWord.1.toNat_lt
  have high := generator.nextWord.2.nextWord.1.toNat_lt
  have words : 1 <<< 64 = UInt32.size * UInt32.size := by decide
  rw [words]
  show generator.nextWord.1.toNat + UInt32.size * generator.nextWord.2.nextWord.1.toNat < _
  simp only [UInt32.size]
  omega

theorem below_lt {width bound fuel : Nat} {draw : Generator → Nat × Generator}
    (within : ∀ generator, (draw generator).1 < 1 <<< width) (positive : 0 < bound)
    (generator : Generator) : (below width draw bound fuel generator).1 < bound := by
  have scaled (generator : Generator) : ((draw generator).1 * bound) >>> width < bound := by
    have drawn := within generator
    rw [Nat.shiftLeft_eq, Nat.one_mul] at drawn
    rw [Nat.shiftRight_eq_div_pow]
    exact Nat.div_lt_of_lt_mul (Nat.mul_lt_mul_of_pos_right drawn positive)
  induction fuel generalizing generator with
  | zero => exact scaled generator
  | succ fuel ih =>
      simp only [below]
      split
      · exact scaled generator
      · exact ih _

theorem index_lt {bound drawn : Nat} {generator after : Generator}
    (rolled : index bound generator = .ok (drawn, after)) : drawn < bound := by
  rw [index] at rolled
  split at rolled
  · cases rolled
  · next occupied =>
      have within : (below 64 draw64 bound maxRejections generator).1 < bound :=
        below_lt draw64_lt (Nat.pos_of_ne_zero occupied) generator
      rwa [Except.ok.inj rolled] at within

theorem swapIfInBounds_perm {α : Type} (items : Array α) (one other : Nat) :
    (items.swapIfInBounds one other).Perm items := by
  rw [Array.swapIfInBounds]
  split
  · split
    · exact Array.swap_perm _ _
    · exact .rfl
  · exact .rfl

theorem shuffleFrom_perm {α : Type} (last : Nat) (items : Array α) (generator : Generator) :
    (shuffleFrom last items generator).1.Perm items := by
  induction last generalizing items generator with
  | zero => exact .rfl
  | succ last ih => exact (ih _ _).trans (swapIfInBounds_perm ..)

theorem shuffle_perm {α : Type} (items : List α) (generator : Generator) :
    (shuffle items generator).1.Perm items :=
  (shuffleFrom_perm _ items.toArray generator).toList

end Generator

end TurnObligations
