/-
**Recursive length headers** (`economic_agent/transaction.rs`, `economic_agent/snapshot.rs`).

The transactions of one rail are lists of byte strings, each behind a header of its length. They are
written by the builder, and the signed ones that come back are read again.

* `rlpBytes`, `rlpList` — what is written.
* `rlpHeader`, `rlpListItems`, `rlpScalar` — what is read; an arithmetic overflow and a slice out of
  range are panics.
* `verifyEvmSigned` — whether a signed transaction is that of an unsigned one.
-/

import Semaprax.Library.Positional

namespace Semaprax.EconomicAgent

open Library

/-- Why the code panics. The release profile keeps the overflow checks. -/
inductive Panic
  | overflow
  | outOfRange
deriving DecidableEq, Repr

/-- How a reader ends without a value: it returns none, or it panics. -/
inductive Stop
  | refused
  | panicked (panic : Panic)
deriving DecidableEq, Repr

/-- The greatest `usize`. -/
def maxUsize : Nat := 2 ^ 64 - 1

/-- Return none under a condition. -/
def refuseIf (condition : Prop) [Decidable condition] : Except Stop Unit :=
  if condition then .error .refused else .ok ()

/-- A number that is computed with a checked operation. -/
def checked (value : Nat) : Except Stop Nat :=
  if value ≤ maxUsize then .ok value else .error .refused

/-- A sum that panics when it overflows. -/
def add (left right : Nat) : Except Stop Nat :=
  if left + right ≤ maxUsize then .ok (left + right) else .error (.panicked .overflow)

def index {A : Type} (items : List A) (place : Nat) : Except Stop A :=
  match items[place]? with
  | some item => .ok item
  | none => .error (.panicked .outOfRange)

/-- The part of a slice from `start` up to `stop`. -/
def slice {A : Type} (items : List A) (start stop : Nat) : Except Stop (List A) :=
  if start ≤ stop ∧ stop ≤ items.length then .ok ((items.take stop).drop start)
  else .error (.panicked .outOfRange)

def lengthHeader (short long length : Nat) : List UInt8 :=
  if length < 56 then [UInt8.ofNat (short + length)]
  else
    let len := beBytes 8 length
    let first := (len.findIdx? (· ≠ 0)).getD 7
    UInt8.ofNat (long + (8 - first)) :: len.drop first

def rlpBytes (value : List UInt8) : List UInt8 :=
  if value.length = 1 ∧ value.all (· < 0x80) then value
  else lengthHeader 0x80 0xb7 value.length ++ value

def rlpList (items : List (List UInt8)) : List UInt8 :=
  lengthHeader 0xc0 0xf7 items.flatten.length ++ items.flatten

def lengthStep (value : Nat) (byte : UInt8) : Except Stop Nat := do
  let scaled ← checked (value * 256)
  checked (scaled + byte.toNat)

/-- A header with a length of `n` bytes. -/
def rlpLongHeader (list : Bool) (n : Nat) (bytes : List UInt8) : Except Stop (Bool × Nat × Nat) := do
  let header ← add 1 n
  refuseIf (bytes.length < header)
  let first ← index bytes 1
  refuseIf (first = 0)
  let lengthBytes ← slice bytes 1 header
  let len ← lengthBytes.foldlM lengthStep 0
  refuseIf (len < 56)
  let total ← add header len
  refuseIf (bytes.length < total)
  pure (list, header, len)

/-- A string of less than 56 bytes. One low byte would be written without a header. -/
def rlpShortString (len : Nat) (bytes : List UInt8) : Except Stop (Bool × Nat × Nat) := do
  refuseIf (bytes.length ≤ len)
  if len = 1 then
    let next ← index bytes 1
    refuseIf (next < 0x80)
    pure (false, 1, len)
  else pure (false, 1, len)

/-- The header at the front of some bytes: whether it is that of a list, how long it is, and how many
bytes it announces. -/
def rlpHeader : List UInt8 → Except Stop (Bool × Nat × Nat)
  | [] => .error .refused
  | first :: rest =>
    if first.toNat ≤ 0x7f then .ok (false, 0, 1)
    else if first.toNat ≤ 0xb7 then rlpShortString (first.toNat - 0x80) (first :: rest)
    else if first.toNat ≤ 0xbf then rlpLongHeader false (first.toNat - 0xb7) (first :: rest)
    else if first.toNat ≤ 0xf7 then do
      refuseIf ((first :: rest).length ≤ first.toNat - 0xc0)
      pure (true, 1, first.toNat - 0xc0)
    else rlpLongHeader true (first.toNat - 0xf7) (first :: rest)

/-- The items of the body of a list. Each takes at least one byte, so that `fuel` many are enough for
a body of that length. -/
def rlpItems : Nat → List UInt8 → Except Stop (List (List UInt8))
  | 0, _ => .ok []
  | fuel + 1, body =>
    if body = [] then .ok []
    else do
      let (_, itemHeader, itemLen) ← rlpHeader body
      let total ← checked (itemHeader + itemLen)
      let item ← slice body 0 total
      let rest ← slice body total body.length
      let items ← rlpItems fuel rest
      pure (item :: items)

def rlpListItems (bytes : List UInt8) : Except Stop (List (List UInt8)) := do
  let (list, header, len) ← rlpHeader bytes
  refuseIf (list = false)
  let total ← add header len
  refuseIf (total ≠ bytes.length)
  let body ← slice bytes header bytes.length
  rlpItems body.length body

/-- The item is a string, and it ends with its payload. -/
def isWholeString (list : Bool) (header len length : Nat) : Except Stop Bool :=
  if list = true then .ok false
  else do
    let total ← add header len
    pure (total = length)

def rlpScalar (item : List UInt8) : Except Stop (List UInt8) := do
  let (list, header, len) ← rlpHeader item
  let whole ← isWholeString list header len item.length
  -- the slice is taken in any case, before it is known whether it is wanted
  let value ← slice item header item.length
  refuseIf (whole = false)
  pure value

def secpOrder : List UInt8 :=
  [0xff, 0xff, 0xff, 0xff, 0xff, 0xff, 0xff, 0xfe, 0xba, 0xae, 0xdc, 0xe6, 0xaf, 0x48, 0xa0,
    0x3b, 0xbf, 0xd2, 0x5e, 0x8c, 0xd0, 0x36, 0x41, 0x41, 0x00, 0x00, 0x00, 0x00, 0x00, 0x00,
    0x00, 0x00]

def secpHalf : List UInt8 :=
  [0x7f, 0xff, 0xff, 0xff, 0xff, 0xff, 0xff, 0xff, 0x5d, 0x57, 0x6e, 0x73, 0x57, 0xa4, 0x50,
    0x1d, 0xdf, 0xe9, 0x2f, 0x46, 0x68, 0x1b, 0x20, 0xa0, 0x00, 0x00, 0x00, 0x00, 0x00, 0x00,
    0x00, 0x00]

def validSecpScalar (value : List UInt8) (lowS : Bool) : Bool :=
  if value = [] ∨ 32 < value.length ∨ value.head? = some 0 then false
  else
    let padded := List.replicate (32 - value.length) 0 ++ value
    decide (padded < secpOrder) && (!lowS || decide (padded ≤ secpHalf))

/-- The checks of a signed transaction, each of which ends in false. -/
def checkEvmSigned (unsigned signed : List UInt8) : Except Stop Unit := do
  refuseIf (unsigned.head? ≠ some 2 ∨ signed.head? ≠ some 2)
  let unsignedItems ← rlpListItems (← slice unsigned 1 unsigned.length)
  let signedItems ← rlpListItems (← slice signed 1 signed.length)
  refuseIf (unsignedItems.length ≠ 9 ∨ signedItems.length ≠ 12)
  let front ← slice signedItems 0 9
  refuseIf ((unsignedItems.zip front).any fun (a, b) => a ≠ b)
  let parity ← rlpScalar (← index signedItems 9)
  refuseIf (parity ≠ [] ∧ parity ≠ [1])
  let r ← rlpScalar (← index signedItems 10)
  let s ← rlpScalar (← index signedItems 11)
  refuseIf ((validSecpScalar r false && validSecpScalar s true) = false)

def verifyEvmSigned (unsigned signed : List UInt8) : Except Panic Bool :=
  match checkEvmSigned unsigned signed with
  | .ok () => .ok true
  | .error .refused => .ok false
  | .error (.panicked panic) => .error panic

example : rlpHeader [0xbf, 0xff, 0xff, 0xff, 0xff, 0xff, 0xff, 0xff, 0xff] =
    .error (.panicked .overflow) := by
  decide +kernel

end Semaprax.EconomicAgent
