/-
  ScriptModule/Text/Utf8.lean
  ===========================
  **UTF-8.**  A first byte says how many bytes the character still needs and in which
  ranges they lie.  Decoding stops at the first byte that fits nowhere, or at an end
  inside a character, and says which bytes are at fault.
-/
import ScriptModule.Text.Line
import ScriptModule.Text.Quoted

namespace ScriptModule

abbrev Bytes := List UInt8

namespace Utf8

/-! ### Mistakes -/

/-- What is wrong with bytes that are no text. -/
inductive Fault where
  | start           -- no character begins with this byte
  | continuation    -- the next byte does not go on with the character
  | ending          -- no bytes are left for the rest of the character
deriving DecidableEq, Repr

def Fault.label : Fault → Text
  | .start => "invalid start byte"
  | .continuation => "invalid continuation byte"
  | .ending => "unexpected end of data"

/-- A fault, the offset of the first byte at fault, and the bytes. -/
structure Mistake where
  fault : Fault
  offset : Nat
  bytes : Bytes
deriving DecidableEq, Repr

def Mistake.place (m : Mistake) : Text :=
  match m.bytes with
  | [b] => "byte 0x" ++ Text.hexText 2 b.toNat ++ " in position " ++ Text.ofNat m.offset
  | bs =>
    "bytes in position " ++ Text.ofNat m.offset ++ "-" ++ Text.ofNat (m.offset + bs.length - 1)

def Mistake.message (m : Mistake) : Text :=
  "'utf-8' codec can't decode " ++ m.place ++ ": " ++ m.fault.label

/-! ### Decoding -/

/-- The least and the greatest byte that may stand at a place. -/
structure Range where
  low : Nat
  high : Nat
deriving DecidableEq, Repr

def Range.contains (r : Range) (b : UInt8) : Bool := r.low ≤ b.toNat && b.toNat ≤ r.high

/-- The range of a byte that is not the first of its character. -/
def tail : Range := ⟨0x80, 0xbf⟩

/-- The bits that a first byte gives, and the ranges of the bytes it owes.  The second
    byte is held to less where more would be overlong, a surrogate or beyond the last
    character. -/
def first (b : UInt8) : Option (Nat × List Range) :=
  let n := b.toNat
  if n < 0x80 then some (n, [])
  else if n < 0xc2 then none
  else if n < 0xe0 then some (n - 0xc0, [tail])
  else if n = 0xe0 then some (0, [⟨0xa0, 0xbf⟩, tail])
  else if n = 0xed then some (0xd, [⟨0x80, 0x9f⟩, tail])
  else if n < 0xf0 then some (n - 0xe0, [tail, tail])
  else if n = 0xf0 then some (0, [⟨0x90, 0xbf⟩, tail, tail])
  else if n < 0xf4 then some (n - 0xf0, [tail, tail, tail])
  else if n = 0xf4 then some (4, [⟨0x80, 0x8f⟩, tail, tail])
  else none

/-- Decodes on inside or between characters: `seen` are the bytes of the character begun
    at `offset`, `bits` what they give, and `owed` the ranges of the bytes it needs. -/
def decodeFrom (offset bits : Nat) (seen : Bytes) (owed : List Range) :
    Bytes → Except Mistake Text
  | [] => if owed.isEmpty then .ok [] else .error ⟨.ending, offset, seen⟩
  | b :: bs =>
    match owed with
    | [] =>
      match first b with
      | none => .error ⟨.start, offset, [b]⟩
      | some (n, []) => (decodeFrom (offset + 1) 0 [] [] bs).map (Char.ofNat n :: ·)
      | some (n, r :: rs) => decodeFrom offset n [b] (r :: rs) bs
    | r :: rs =>
      if r.contains b then
        let n := 64 * bits + (b.toNat - 0x80)
        match rs with
        | [] =>
          (decodeFrom (offset + seen.length + 1) 0 [] [] bs).map (Char.ofNat n :: ·)
        | _ :: _ => decodeFrom offset n (seen ++ [b]) rs bs
      else .error ⟨.continuation, offset, seen⟩

def decode (bs : Bytes) : Except Mistake Text := decodeFrom 0 0 [] [] bs

def encode (t : Text) : Bytes := t.flatMap String.utf8EncodeChar

def size (t : Text) : Nat := (t.map Char.utf8Size).foldl (· + ·) 0

/-! ### Reading a file -/

/-- The bytes behind the mark that a file may begin with; a file that holds a part of
    the mark and no more is empty. -/
def unmarked : Bytes → Bytes
  | 0xef :: 0xbb :: 0xbf :: bs => bs
  | [0xef, 0xbb] | [0xef] => []
  | bs => bs

/-- The text that a file holds; offsets of mistakes count from behind the mark. -/
def read (bs : Bytes) : Except Mistake Text := (decode (unmarked bs)).map Text.withLineFeeds

end Utf8
end ScriptModule
