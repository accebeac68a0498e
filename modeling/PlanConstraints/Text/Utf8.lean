set_option autoImplicit false

/-!
# Text: bytes

Programs answer with bytes, which are a text only if they are the UTF-8 form of one.  Bytes are read
from left to right: either they start with the form of a character, or with a piece that no
character starts with, or they end inside a character.

Main statement: every step of the reader leaves fewer bytes.
-/

namespace PlanConstraints.Text

def encode (cs : List Char) : List UInt8 := cs.flatMap String.utf8EncodeChar

/-- What bytes start with. -/
inductive ByteHead where
  | char (c : Char) (rest : List UInt8)
  /-- That many bytes with which no character starts. -/
  | wrong (length : Nat) (rest : List UInt8)
  /-- All bytes start a character, whose other bytes are missing. -/
  | incomplete
  deriving Repr

/-- What the second byte of a character can be, and how many bytes follow that one, given the first
byte of a character beyond ASCII. -/
def secondByte (first : Nat) : Option (Nat × Nat × Nat) :=
  if 0xc2 ≤ first ∧ first ≤ 0xdf then some (0x80, 0xbf, 0)
  else if first = 0xe0 then some (0xa0, 0xbf, 1)
  else if first = 0xed then some (0x80, 0x9f, 1)
  else if 0xe1 ≤ first ∧ first ≤ 0xef then some (0x80, 0xbf, 1)
  else if first = 0xf0 then some (0x90, 0xbf, 2)
  else if 0xf1 ≤ first ∧ first ≤ 0xf3 then some (0x80, 0xbf, 2)
  else if first = 0xf4 then some (0x80, 0x8f, 2)
  else none

/-- The bits that the first byte gives to the code point, when that many bytes follow the second. -/
def firstBits (first more : Nat) : Nat :=
  match more with
  | 0 => first - 0xc0
  | 1 => first - 0xe0
  | _ => first - 0xf0

/-- Reads the bytes behind the second one; `count` bytes have been read, whose bits are `bits`. -/
def lastBytes (count bits : Nat) : Nat → List UInt8 → ByteHead
  | 0, rest => .char (Char.ofNat bits) rest
  | _ + 1, [] => .incomplete
  | more + 1, b :: rest =>
    if 0x80 ≤ b.toNat ∧ b.toNat ≤ 0xbf then
      lastBytes (count + 1) (bits * 64 + (b.toNat - 0x80)) more rest
    else .wrong count (b :: rest)

/-- What the bytes start with, given the first one. -/
def byteHead (first : UInt8) (rest : List UInt8) : ByteHead :=
  if first.toNat < 0x80 then .char (Char.ofNat first.toNat) rest
  else
    match secondByte first.toNat with
    | none => .wrong 1 rest
    | some (low, high, more) =>
      match rest with
      | [] => .incomplete
      | b :: rest' =>
        if low ≤ b.toNat ∧ b.toNat ≤ high then
          lastBytes 2 (firstBits first.toNat more * 64 + (b.toNat - 0x80)) more rest'
        else .wrong 1 rest

/-- The bytes that are left, if the bytes go on. -/
def ByteHead.rest : ByteHead → List UInt8
  | char _ rest => rest
  | wrong _ rest => rest
  | incomplete => []

theorem length_lastBytes_le (count bits more : Nat) (bytes : List UInt8) :
    (lastBytes count bits more bytes).rest.length ≤ bytes.length := by
  induction more generalizing count bits bytes with
  | zero => simp [lastBytes, ByteHead.rest]
  | succ more ih =>
    cases bytes with
    | nil => simp [lastBytes, ByteHead.rest]
    | cons b rest =>
      unfold lastBytes
      split
      · exact Nat.le_trans (ih _ _ _) (by simp)
      · simp [ByteHead.rest]

theorem length_byteHead_le (first : UInt8) (rest : List UInt8) :
    (byteHead first rest).rest.length ≤ rest.length := by
  unfold byteHead
  split
  · simp [ByteHead.rest]
  · split
    · simp [ByteHead.rest]
    · split
      · simp [ByteHead.rest]
      · split
        · exact Nat.le_trans (length_lastBytes_le _ _ _ _) (by simp)
        · simp [ByteHead.rest]

/-- Where and how bytes fail to be a text. -/
inductive NotText where
  /-- Behind so many bytes, so many bytes are wrong. -/
  | wrong (start length : Nat)
  /-- Behind so many bytes, the bytes end inside a character. -/
  | incomplete (start : Nat)
  deriving DecidableEq, Repr

def NotText.message : NotText → String
  | wrong start length =>
    "invalid utf-8 sequence of " ++ toString length ++ " bytes from index " ++ toString start
  | incomplete start => "incomplete utf-8 byte sequence from index " ++ toString start

/-- Reads the bytes behind the first `start` ones. -/
def decodeFrom (start : Nat) : List UInt8 → Except NotText (List Char)
  | [] => .ok []
  | first :: bytes =>
    match _h : byteHead first bytes with
    | .incomplete => .error (.incomplete start)
    | .wrong length _ => .error (.wrong start length)
    | .char c rest =>
      match decodeFrom (start + c.utf8Size) rest with
      | .error e => .error e
      | .ok cs => .ok (c :: cs)
termination_by bytes => bytes.length
decreasing_by
  have := length_byteHead_le first bytes
  rw [_h] at this
  simp only [ByteHead.rest, List.length_cons] at *
  omega

/-- The text whose UTF-8 form the bytes are. -/
def decode (bytes : List UInt8) : Except NotText (List Char) := decodeFrom 0 bytes

/-- What stands for bytes that are not a character. -/
def replacement : Char := '\ufffd'

/-- The text that the bytes come closest to. -/
def decodeLossy : List UInt8 → List Char
  | [] => []
  | first :: bytes =>
    match _h : byteHead first bytes with
    | .incomplete => [replacement]
    | .wrong _ rest => replacement :: decodeLossy rest
    | .char c rest => c :: decodeLossy rest
termination_by bytes => bytes.length
decreasing_by
  all_goals
    have := length_byteHead_le first bytes
    rw [_h] at this
    simp only [ByteHead.rest, List.length_cons] at *
    omega

end PlanConstraints.Text
