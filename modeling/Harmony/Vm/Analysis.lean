import Harmony.Core.Types

/-!
The jump-destination analysis of `core/vm/analysis.go` and its use in `Contract.validJumpdest`
(`core/vm/contract.go`).

`codeBitmap` marks every byte of code that is immediate data of a `PUSHn`, one bit per byte, in a
`bitvec` whose bytes hold their bits high bit first. Whole groups of eight marks go in with `set8`,
which spills into the next byte when the position is not a multiple of eight; the vector is four
bytes longer than the code needs so that the marks of a trailing `PUSH32` stay inside it. An index
past the end of the vector panics in Go, and is `none` here.
-/

namespace Harmony

open Go

namespace Vm

/-- Go's `PUSH1` opcode. -/
def PUSH1 : UInt8 := 0x60

/-- Go's `PUSH32` opcode. -/
def PUSH32 : UInt8 := 0x7f

/-- Go's `JUMPDEST` opcode. -/
def JUMPDEST : UInt8 := 0x5b

/-- Go's `bitvec`: bit `pos` is bit `7 - pos % 8` of byte `pos / 8`, set when byte `pos` is data. -/
abbrev bitvec := List UInt8

/-- `bits[i] |= mask`: `none` where Go's index is out of range and panics. -/
def orAt (bits : bitvec) (i : Nat) (mask : UInt8) : Option bitvec :=
  if within : i < bits.length then some (bits.set i (bits[i] ||| mask)) else none

/-- Go's `bitvec.set`: marks position `pos` as data. -/
def bitvec.set (bits : bitvec) (pos : Nat) : Option bitvec :=
  orAt bits (pos / 8) (0x80 >>> (pos % 8).toUInt8)

/-- Go's `bitvec.set8`: marks the eight positions from `pos` as data, across two bytes. -/
def bitvec.set8 (bits : bitvec) (pos : Nat) : Option bitvec := do
  let a : UInt8 := 0xFF >>> (pos % 8).toUInt8
  let bits ← orAt bits (pos / 8) a
  orAt bits (pos / 8 + 1) (~~~a)

/-- Go's `bitvec.codeSegment`: whether position `pos` is code rather than data. -/
def bitvec.codeSegment (bits : bitvec) (pos : Nat) : Option Bool := do
  let byte ← bits[pos / 8]?
  pure (byte &&& (0x80 >>> (pos % 8).toUInt8) == 0)

/-- The loop `for ; numbits > 0; numbits-- { bits.set(pc); pc++ }`, returning the vector and `pc`. -/
def setLoop (bits : bitvec) (pc : Nat) : Nat → Option (bitvec × Nat)
  | 0 => some (bits, pc)
  | numbits + 1 => do
    let bits ← bits.set pc
    setLoop bits (pc + 1) numbits

/-- The two inner loops of a push: `set8` while eight marks or more are left, then `set`. -/
def set8Loop (bits : bitvec) (pc : Nat) : Nat → Option (bitvec × Nat)
  | numbits + 8 => do
    let bits ← bits.set8 pc
    set8Loop bits (pc + 8) numbits
  | numbits => setLoop bits pc numbits

/--
The outer loop of Go's `codeBitmap` from position `pc`, with `fuel` iterations left: a push's data
is marked and skipped, every other opcode is skipped alone.
-/
def codeBitmapLoop (code : Bytes) : Nat → bitvec → Nat → Option bitvec
  | 0, _, _ => none
  | fuel + 1, bits, pc =>
    match code[pc]? with
    -- `pc < uint64(len(code))` fails
    | none => some bits
    | some op =>
      if PUSH1 ≤ op ∧ op ≤ PUSH32 then do
        let numbits := op - PUSH1 + 1
        let (bits, pc) ← set8Loop bits (pc + 1) numbits.toNat
        codeBitmapLoop code fuel bits pc
      else codeBitmapLoop code fuel bits (pc + 1)

/-- Go's `codeBitmap`: every iteration moves `pc` forward, so one per byte and a last one suffice. -/
def codeBitmap (code : Bytes) : Option bitvec :=
  codeBitmapLoop code (code.length + 1) (List.replicate (code.length / 8 + 1 + 4) 0) 0

/-- The fields of Go's `Contract` that `validJumpdest` reads and writes. -/
structure Contract where
  /-- The analyses by code hash, shared with the parent context. -/
  jumpdests : AList fun _ : Hash => bitvec
  /-- The analysis of code that has no hash, kept by this contract alone. -/
  analysis : Option bitvec
  Code : Bytes
  CodeHash : Hash

/--
Go's `Contract.validJumpdest` for a destination `dest` off the stack: whether it is a `JUMPDEST`
outside push data, and the contract with the analysis it caches. `dest.BitLen()` is `Nat.size`.
-/
def Contract.validJumpdest (c : Contract) (dest : Nat) : Option (Bool × Contract) :=
  let udest := dest % 2 ^ 64
  -- PC cannot go beyond len(code) and certainly can't be bigger than 63bits.
  if dest.size ≥ 63 ∨ udest ≥ c.Code.length then some (false, c)
  else if c.Code[udest]? ≠ some JUMPDEST then some (false, c)
  else if c.CodeHash ≠ FixedBytes.zero 32 then
    match c.jumpdests.lookup c.CodeHash with
    | some analysis => (analysis.codeSegment udest).map fun valid => (valid, c)
    | none => do
      -- The analysis goes to the parent context's map, not to `c.analysis`.
      let analysis ← codeBitmap c.Code
      let c := { c with jumpdests := c.jumpdests.insert c.CodeHash analysis }
      (analysis.codeSegment udest).map fun valid => (valid, c)
  else
    match c.analysis with
    | some analysis => (analysis.codeSegment udest).map fun valid => (valid, c)
    | none => do
      let analysis ← codeBitmap c.Code
      let c := { c with analysis := some analysis }
      (analysis.codeSegment udest).map fun valid => (valid, c)

end Vm

end Harmony
