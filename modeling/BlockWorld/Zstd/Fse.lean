import BlockWorld.Zstd.Bits

/-! # Finite-state entropy tables

A table of `2 ^ log` states is described by how often each symbol occurs in it. A state stands for
a symbol and tells how many bits to read for the next state.
-/

namespace BlockWorld

namespace Zstd

structure State where
  symbol : Nat
  /-- The next state is `base` and the number in the next `bits` bits. -/
  bits : Nat
  base : Nat

structure FseTable where
  log : Nat
  states : Array State

namespace FseTable

abbrev Counts := List Int

/-- Reads one count, when `left` states are still to be given out. Small values take a bit less. -/
def readCount (left : Nat) (s : Bits) : Option (Int × Bits) := do
  let width := (left + 1).log2 + 1
  let short := 1 <<< width - 1 - (left + 1)
  let (low, rest) ← Bits.takeLow? (width - 1) s
  if low < short then return (low - 1, rest)
  let (high, rest) ← Bits.takeLow? 1 rest
  let value := low + 1 <<< (width - 1) * high
  return ((if high = 0 then value else value - short : Nat) - 1, rest)

/-- The zero counts that follow one: two bits tell how many, and three of them go on. -/
def readZeros : (n : Nat) → Bits → Option (Nat × Bits)
  | 0, _ => none
  | n + 1, s => do
    let (k, s) ← Bits.takeLow? 2 s
    if k = 3 then
      let (more, s) ← readZeros n s
      return (3 + more, s)
    else return (k, s)

/-- Reads counts until all states are given out, for at most `n` symbols; `done` is reversed. -/
def readCounts : (n : Nat) → (left : Nat) → (done : Counts) → Bits → Option (Counts × Bits)
  | _, 0, done, s => some (done.reverse, s)
  | 0, _ + 1, _, _ => none
  | n + 1, left + 1, done, s => do
    let (count, s) ← readCount (left + 1) s
    let taken := count.natAbs
    if left + 1 < taken then none
    else if count = 0 then
      let (zeros, s) ← readZeros s.length s
      if n < zeros then none
      else readCounts n (left + 1) (List.replicate (zeros + 1) 0 ++ done) s
    else readCounts n (left + 1 - taken) (count :: done) s

/-- The symbol of each state. Symbols that occur less than once take the last states; the others
are spread over the rest in steps that visit every state once. -/
def spread (log : Nat) (counts : Counts) : Array Nat :=
  let size := 1 <<< log
  let numbered := counts.zipIdx
  let rare := (numbered.filter (·.1 < 0)).map (·.2)
  let common := numbered.flatMap fun (n, symbol) => List.replicate n.toNat symbol
  let step := size / 2 + size / 8 + 3
  let places := ((List.range size).map fun i => i * step % size).filter (· < size - rare.length)
  let fill (a : Array Nat) (p : Nat × Nat) : Array Nat := a.setIfInBounds p.1 p.2
  let table := (places.zip common).foldl fill (Array.replicate size 0)
  (((List.range size).reverse).zip rare).foldl fill table

/-- The table with these counts. The states of a symbol are numbered from its count on. -/
def build (log : Nat) (counts : Counts) : FseTable :=
  let step (acc : Array State × Array Nat) (symbol : Nat) : Array State × Array Nat :=
    let number := acc.2.getD symbol 0
    let bits := log - number.log2
    let state : State := ⟨symbol, bits, number <<< bits - 1 <<< log⟩
    (acc.1.push state, acc.2.setIfInBounds symbol (number + 1))
  ⟨log, ((spread log counts).foldl step (#[], (counts.map Int.natAbs).toArray)).1⟩

def single (symbol : Nat) : FseTable := ⟨0, #[⟨symbol, 0, 0⟩]⟩

/-- Reads the description of a table of at most `2 ^ maxLog` states and `symbols` symbols, and
leaves the octets behind it. -/
def read (maxLog symbols : Nat) (b : Bytes) : Option (FseTable × Bytes) := do
  let bits := Bits.forward b
  let (low, rest) ← Bits.takeLow? 4 bits
  let log := low + 5
  if maxLog < log then none
  else
    let (counts, rest) ← readCounts symbols (1 <<< log) [] rest
    return (build log counts, b.drop ((bits.length - rest.length + 7) / 8))

def start (t : FseTable) (s : Bits) : Option (State × Bits) := do
  let (n, s) ← Bits.takeHigh? t.log s
  return (← t.states[n]?, s)

def next (t : FseTable) (q : State) (s : Bits) : Option (State × Bits) := do
  let (n, s) ← Bits.takeHigh? q.bits s
  return (← t.states[q.base + n]?, s)

end FseTable

end Zstd

end BlockWorld
