/-!
# UTF-8 with replacement

`decodeLossy` reads bytes as UTF-8. Each longest beginning of a character that is broken off, and
each byte that begins none, becomes one replacement character.
-/

namespace ScriptTypings.Text

def replacement : Char := '\uFFFD'

/-- The bytes that may follow a leading byte, and how many continuation bytes its character has. -/
def secondRange? (lead : Nat) : Option (Nat × Nat × Nat) :=
  if 0xC2 ≤ lead && lead ≤ 0xDF then some (1, 0x80, 0xBF)
  else if lead = 0xE0 then some (2, 0xA0, 0xBF)
  else if lead = 0xED then some (2, 0x80, 0x9F)
  else if 0xE1 ≤ lead && lead ≤ 0xEF then some (2, 0x80, 0xBF)
  else if lead = 0xF0 then some (3, 0x90, 0xBF)
  else if 0xF1 ≤ lead && lead ≤ 0xF3 then some (3, 0x80, 0xBF)
  else if lead = 0xF4 then some (3, 0x80, 0x8F)
  else none

/-- Reads up to `count` further bytes, the first of them between `low` and `high`, onto the bits
read so far. Answers the character and the number of bytes used. -/
def readTail : Nat → Nat → Nat → Nat → Nat → List UInt8 → Char × Nat
  | 0, _, _, bits, used, _ => (Char.ofNat bits, used)
  | _ + 1, _, _, _, used, [] => (replacement, used)
  | count + 1, low, high, bits, used, b :: rest =>
    if low ≤ b.toNat && b.toNat ≤ high then
      readTail count 0x80 0xBF (bits * 64 + (b.toNat - 0x80)) (used + 1) rest
    else (replacement, used)

/-- The first character, and how many bytes behind the leading one it takes. -/
def readChar (lead : Nat) (rest : List UInt8) : Char × Nat :=
  if lead < 0x80 then (Char.ofNat lead, 0)
  else
    match secondRange? lead with
    | none => (replacement, 0)
    | some (count, low, high) =>
      readTail count low high (if count = 1 then lead - 0xC0 else if count = 2 then lead - 0xE0
        else lead - 0xF0) 0 rest

def decodeLossy : List UInt8 → List Char
  | [] => []
  | b :: rest =>
    let r := readChar b.toNat rest
    r.1 :: decodeLossy (rest.drop r.2)
termination_by s => s.length
decreasing_by
  simp only [List.length_drop, List.length_cons]
  omega

end ScriptTypings.Text
