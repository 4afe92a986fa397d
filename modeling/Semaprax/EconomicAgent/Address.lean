/-
**Texts of addresses** (`economic_agent/address.rs`).

A recipient is written in base 58, or in groups of five bits with a checksum. Texts are the bytes of
strings.

* `encodeBase58`, `decodeBase58_32` — the digits of a number, with a one for each leading zero byte.
* `convertBits` — bits in groups of another size.
* `bech32Verify`, `decodeRegtestP2wpkh` — the checksum, and the script of a text.
* `validRecipient`, `recipientAllowed` — what a policy admits as a recipient, and the comparison of
  texts by which a payment is admitted.
-/

import Semaprax.Library.Radix

namespace Semaprax.EconomicAgent

open Library

/-- The bytes of a text without other characters. -/
def ascii (text : String) : List UInt8 := text.toList.map fun char => UInt8.ofNat char.toNat

def base58Alphabet : List UInt8 := ascii "123456789ABCDEFGHJKLMNPQRSTUVWXYZabcdefghijkmnopqrstuvwxyz"

def base58Char (digit : Nat) : UInt8 := base58Alphabet.getD digit 0

/-- The digits of the bytes, least significant first. -/
def base58Digits (bytes : List UInt8) : List Nat :=
  bytes.foldl (fun digits byte => grow 58 256 digits byte.toNat) []

def encodeBase58 (bytes : List UInt8) : List UInt8 :=
  if bytes = [] then []
  else
    let zeros := (bytes.takeWhile (· = 0)).length
    let digits := base58Digits (bytes.drop zeros)
    List.replicate zeros (base58Char 0) ++ digits.reverse.map base58Char

/-- Take in one character. The slots are bytes, most significant first. -/
def decodeStep (output : List Nat) (byte : UInt8) : Option (List Nat) := do
  let digit ← base58Alphabet.findIdx? (· = byte)
  let (slots, carry) := mulAdd 256 58 output.reverse digit
  if carry ≠ 0 then none else some slots.reverse

def decodeBase58_32 (value : List UInt8) : Option (List UInt8) :=
  if value = [] then none
  else do
    let slots ← value.foldlM decodeStep (List.replicate 32 0)
    let output := slots.map UInt8.ofNat
    if encodeBase58 output = value then some output else none

/-- The groups that have been written, and the bits that have not. -/
structure Groups where
  acc : Nat
  bits : Nat
  out : List UInt8
deriving DecidableEq, Repr

/-- Write groups while there are bits enough. Each takes at least one bit, so that `fuel` is enough
when it is the number of bits. -/
def emit (toBits : Nat) : Nat → Groups → Groups
  | 0, groups => groups
  | fuel + 1, groups =>
    if toBits ≤ groups.bits then
      emit toBits fuel ⟨groups.acc, groups.bits - toBits, groups.out ++
        [UInt8.ofNat ((groups.acc >>> (groups.bits - toBits)) &&& (1 <<< toBits - 1))]⟩
    else groups

/-- Take in one group. The accumulator has 32 bits, and higher ones are dropped. -/
def feed (fromBits toBits : Nat) (groups : Groups) (value : UInt8) : Option Groups :=
  if value.toNat >>> fromBits ≠ 0 then none
  else
    let acc := (groups.acc <<< fromBits) % 2 ^ 32 ||| value.toNat
    let bits := groups.bits + fromBits
    some (emit toBits bits ⟨acc, bits, groups.out⟩)

def convertBits (data : List UInt8) (fromBits toBits : Nat) (pad : Bool) : Option (List UInt8) := do
  let groups ← data.foldlM (feed fromBits toBits) ⟨0, 0, []⟩
  let last := ((groups.acc <<< (toBits - groups.bits)) % 2 ^ 32) &&& (1 <<< toBits - 1)
  if pad = true then
    if 0 < groups.bits then some (groups.out ++ [UInt8.ofNat last]) else some groups.out
  else if fromBits ≤ groups.bits ∨ last ≠ 0 then none
  else some groups.out

/-- What is added for the bits that are shifted out. -/
def polymodGenerators : List Nat := [0x3b6a57b2, 0x26508e6d, 0x1ea119fa, 0x3d4233dd, 0x2a1462b3]

/-- Add the generators of the bits of `top`, from bit `place` on. -/
def addGenerators (top : Nat) : Nat → List Nat → Nat → Nat
  | _, [], chk => chk
  | place, generator :: generators, chk =>
    addGenerators top (place + 1) generators
      (if (top >>> place) &&& 1 ≠ 0 then chk ^^^ generator else chk)

/-- One step of the checksum. It has 30 bits after the mask and the shift. -/
def polymodStep (chk : Nat) (value : UInt8) : Nat :=
  addGenerators (chk >>> 25) 0 polymodGenerators (((chk &&& 0x1ffffff) <<< 5) ^^^ value.toNat)

/-- What the checksum takes in for the part in front of the data. -/
def hrpExpand (hrp : List UInt8) : List UInt8 :=
  hrp.map (· >>> (5 : UInt8)) ++ 0 :: hrp.map (· &&& (31 : UInt8))

def bech32Verify (hrp data : List UInt8) : Bool :=
  (hrpExpand hrp ++ data).foldl polymodStep 1 = 1

def bech32Charset : List UInt8 := ascii "qpzry9x8gf2tvdw0s3jn54khce6mua7l"

/-- The group of a character. -/
def charsetPosition (byte : UInt8) : Option UInt8 :=
  (bech32Charset.findIdx? (· = byte)).map UInt8.ofNat

def toAsciiLowercase (byte : UInt8) : UInt8 :=
  if 65 ≤ byte ∧ byte ≤ 90 then byte + 32 else byte

/-- The last place of a byte. -/
def rfind (text : List UInt8) (byte : UInt8) : Option Nat :=
  (text.reverse.findIdx? (· = byte)).map (text.length - 1 - ·)

/-- The script of a program behind the tag of its version. -/
def decodeData (hrp data : List UInt8) : Option (List UInt8) := do
  guard (7 ≤ data.length ∧ bech32Verify hrp data = true)
  let payload := data.take (data.length - 6)
  guard (payload.head? = some 0)
  let program ← convertBits (payload.drop 1) 5 8 false
  guard (program.length = 20)
  some (0x00 :: 0x14 :: program)

def decodeRegtestP2wpkh (value : List UInt8) : Option (List UInt8) := do
  guard (value.map toAsciiLowercase = value ∧ ascii "bcrt1q" <+: value)
  let position ← rfind value 0x31
  let hrp := value.take position
  guard (hrp = ascii "bcrt")
  let data ← (value.drop (position + 1)).mapM charsetPosition
  decodeData hrp data

/-- The rails of which a recipient is an encoded key. -/
inductive KeyRail
  | solana
  | bitcoin
deriving DecidableEq, Repr

/-- The key that a text stands for: 32 bytes, or a script. -/
def recipientKey (rail : KeyRail) (value : List UInt8) : Option (List UInt8) :=
  match rail with
  | .solana => decodeBase58_32 value
  | .bitcoin => decodeRegtestP2wpkh value

def validRecipient (rail : KeyRail) (value : List UInt8) : Bool := (recipientKey rail value).isSome

/-- The comparison by which the recipient of a payment is admitted. -/
def recipientAllowed (recipients : List (List UInt8)) (recipient : List UInt8) : Bool :=
  recipients.any (· = recipient)

example : decodeBase58_32 (encodeBase58 (0 :: List.replicate 31 7)) =
    some (0 :: List.replicate 31 7) := by
  decide +kernel

end Semaprax.EconomicAgent
