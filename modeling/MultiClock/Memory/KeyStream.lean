/-! A stream of pseudo-random words: the ChaCha block function with twelve rounds in counter mode,
with a zero nonce. The key is drawn from a 64-bit seed by a permuted congruential generator. A
stream is determined by its key; its state only remembers which word comes next. -/

namespace MultiClock

namespace KeyStream

/-- The sixteen words that a block starts from or ends in. -/
abbrev Block := Vector UInt32 16

def rotateLeft (word count : UInt32) : UInt32 := (word <<< count) ||| (word >>> (32 - count))

def quarterRound (block : Block) (a b c d : Fin 16) : Block :=
  let wa := block[a] + block[b]
  let wd := rotateLeft (block[d] ^^^ wa) 16
  let wc := block[c] + wd
  let wb := rotateLeft (block[b] ^^^ wc) 12
  let wa := wa + wb
  let wd := rotateLeft (wd ^^^ wa) 8
  let wc := wc + wd
  let wb := rotateLeft (wb ^^^ wc) 7
  (((block.set a wa).set b wb).set c wc).set d wd

/-- One round over the columns and one over the diagonals. -/
def doubleRound (block : Block) : Block :=
  let block := quarterRound block 0 4 8 12
  let block := quarterRound block 1 5 9 13
  let block := quarterRound block 2 6 10 14
  let block := quarterRound block 3 7 11 15
  let block := quarterRound block 0 5 10 15
  let block := quarterRound block 1 6 11 12
  let block := quarterRound block 2 7 8 13
  quarterRound block 3 4 9 14

def initial (key : Vector UInt32 8) (counter : UInt64) : Block :=
  #v[0x61707865, 0x3320646e, 0x79622d32, 0x6b206574,
    key[0], key[1], key[2], key[3], key[4], key[5], key[6], key[7],
    counter.toUInt32, (counter >>> 32).toUInt32, 0, 0]

def block (key : Vector UInt32 8) (counter : UInt64) : Block :=
  let start := initial key counter
  Vector.zipWith (· + ·) start (Nat.repeat doubleRound 6 start)

/-- The next state of the generator of keys and the word that it yields. -/
def nextKeyWord (state : UInt64) : UInt64 × UInt32 :=
  let state := state * 6364136223846793005 + 11634580027462260723
  let mixed := (((state >>> 18) ^^^ state) >>> 27).toUInt32
  let count := (state >>> 59).toUInt32
  (state, (mixed >>> count) ||| (mixed <<< ((32 - count) &&& 31)))

def keyWords : (count : Nat) → UInt64 → List UInt32
  | 0, _ => []
  | count + 1, state =>
    let (state, word) := nextKeyWord state
    word :: keyWords count state

def keyOfSeed (seed : UInt64) : Vector UInt32 8 :=
  let words := (keyWords 8 seed).toArray
  Vector.ofFn fun i => words.getD i 0

end KeyStream

structure KeyStream where
  key : Vector UInt32 8
  /-- How many words were drawn. -/
  position : Nat
  /-- The block that the next word comes from, unless that word is the first of a block. -/
  current : KeyStream.Block
deriving Repr

namespace KeyStream

def ofSeed (seed : UInt64) : KeyStream := ⟨keyOfSeed seed, 0, Vector.replicate 16 0⟩

def next (stream : KeyStream) : UInt32 × KeyStream :=
  let index := stream.position % 16
  let current :=
    if index = 0 then block stream.key (UInt64.ofNat (stream.position / 16)) else stream.current
  let word := current.get ⟨index, Nat.mod_lt _ (by decide)⟩
  (word, { stream with position := stream.position + 1, current })

/-- Appends `count` bytes. Words are used whole: what the last one has too much is lost. -/
def pushBytes (stream : KeyStream) (count : Nat) (bytes : Array UInt8) : Array UInt8 × KeyStream :=
  match count with
  | 0 => (bytes, stream)
  | 1 => let (word, stream) := stream.next; (bytes.push word.toUInt8, stream)
  | 2 =>
    let (word, stream) := stream.next
    ((bytes.push word.toUInt8).push (word >>> 8).toUInt8, stream)
  | 3 =>
    let (word, stream) := stream.next
    (((bytes.push word.toUInt8).push (word >>> 8).toUInt8).push (word >>> 16).toUInt8, stream)
  | rest + 4 =>
    let (word, stream) := stream.next
    let bytes := ((bytes.push word.toUInt8).push (word >>> 8).toUInt8).push (word >>> 16).toUInt8
    pushBytes stream rest (bytes.push (word >>> 24).toUInt8)

end KeyStream
end MultiClock
