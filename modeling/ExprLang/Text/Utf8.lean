/-! Strict UTF-8. The octets of a character are a leading one, which fixes how many follow and what the second may
    be, and continuations. A fault covers the octets of the character that were in order when it was noticed. -/

namespace ExprLang.Text.Utf8

/-- What breaks a sequence of octets. -/
inductive Flaw
  | invalidStart
  | invalidContinuation
  | unexpectedEnd
  deriving DecidableEq, Repr

def Flaw.reason : Flaw → String
  | .invalidStart => "invalid start byte"
  | .invalidContinuation => "invalid continuation byte"
  | .unexpectedEnd => "unexpected end of data"

/-- A flaw and the octets it covers, from the one at offset `position` on. -/
structure Fault where
  flaw : Flaw
  position : Nat
  first : UInt8
  /-- How many octets follow the first. -/
  following : Nat
  deriving DecidableEq, Repr

/-- Two hexadecimal digits. -/
def hexOctet (b : UInt8) : String :=
  String.ofList [Nat.digitChar (b.toNat / 16), Nat.digitChar (b.toNat % 16)]

def Fault.message (fault : Fault) : String :=
  let place :=
    if fault.following = 0 then s!"byte 0x{hexOctet fault.first} in position {fault.position}"
    else s!"bytes in position {fault.position}-{fault.position + fault.following}"
  s!"'utf-8' codec can't decode {place}: {fault.flaw.reason}"

/-- A character that has begun: its first octet, how many have been read after it, how many are still owed, the
    range of the next one, and the bits so far. -/
structure Pending where
  first : UInt8
  following : Nat := 0
  owed : Nat
  low : UInt8 := 0x80
  high : UInt8 := 0xBF
  bits : Nat

/-- The fault of a character that cannot go on, when the next octet has offset `position`. -/
def Pending.fault (pending : Pending) (flaw : Flaw) (position : Nat) : Fault :=
  ⟨flaw, position - 1 - pending.following, pending.first, pending.following⟩

/-- What a leading octet beyond ASCII announces. -/
def announced (b : UInt8) : Option Pending :=
  if 0xC2 ≤ b && b ≤ 0xDF then some { first := b, owed := 1, bits := b.toNat - 0xC0 }
  else if b = 0xE0 then some { first := b, owed := 2, low := 0xA0, bits := 0 }
  else if b = 0xED then some { first := b, owed := 2, high := 0x9F, bits := 0xD }
  else if 0xE1 ≤ b && b ≤ 0xEF then some { first := b, owed := 2, bits := b.toNat - 0xE0 }
  else if b = 0xF0 then some { first := b, owed := 3, low := 0x90, bits := 0 }
  else if 0xF1 ≤ b && b ≤ 0xF3 then some { first := b, owed := 3, bits := b.toNat - 0xF0 }
  else if b = 0xF4 then some { first := b, owed := 3, high := 0x8F, bits := 4 }
  else none

/-- A decoder between two octets. -/
structure Decoder where
  position : Nat := 0
  pending : Option Pending := none
  /-- The characters read, the last one first. -/
  read : List Char := []

/-- One octet more. -/
def Decoder.step (d : Decoder) (b : UInt8) : Except Fault Decoder :=
  match d.pending with
  | none =>
    if b < 0x80 then .ok ⟨d.position + 1, none, Char.ofNat b.toNat :: d.read⟩
    else match announced b with
      | some pending => .ok ⟨d.position + 1, some pending, d.read⟩
      | none => .error ⟨.invalidStart, d.position, b, 0⟩
  | some pending =>
    if pending.low ≤ b && b ≤ pending.high then
      let bits := pending.bits * 64 + (b.toNat - 0x80)
      if pending.owed = 1 then .ok ⟨d.position + 1, none, Char.ofNat bits :: d.read⟩
      else
        let pending :=
          { first := pending.first, following := pending.following + 1, owed := pending.owed - 1, bits : Pending }
        .ok ⟨d.position + 1, some pending, d.read⟩
    else .error (pending.fault .invalidContinuation d.position)

/-- The text whose UTF-8 form the octets are, or the first fault. -/
def decode (octets : List UInt8) : Except Fault String := do
  let d ← octets.foldlM Decoder.step {}
  match d.pending with
  | none => .ok (String.ofList d.read.reverse)
  | some pending => .error (pending.fault .unexpectedEnd d.position)

end ExprLang.Text.Utf8
