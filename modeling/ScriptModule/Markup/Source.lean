/-
  ScriptModule/Markup/Source.lean
  ===============================
  **The characters of a document.**  The markup at the front of a document has no NUL in
  it.  So a NUL among the first two bytes shows that the bytes stand for characters two
  by two, and the document is read from its bytes in that way.
-/
import ScriptModule.Text.Utf8

namespace ScriptModule.Markup

/-! ### Widths -/

/-- How characters are written: in as many bytes as each needs, or in units of two. -/
inductive Width where
  | narrow
  | wide
deriving DecidableEq, Repr

def Width.unit : Width → Nat
  | narrow => 1
  | wide => 2

def Width.size : Width → Text → Nat
  | narrow, t => Utf8.size t
  | wide, t => (t.map fun c => if c.toNat < 0x10000 then 2 else 4).foldl (· + ·) 0

/-- What stands for a character whose first half is at the very end of a text. -/
def torn : Char := '\uFFFF'

/-- Whether only half a character is left. -/
def isTorn (t : Text) : Bool := t.head? = some torn

/-! ### Pairs of bytes -/

/-- Which byte of a pair counts 256 times its value. -/
inductive ByteOrder where
  | highFirst
  | lowFirst
deriving DecidableEq, Repr

def ByteOrder.value : ByteOrder → UInt8 → UInt8 → Nat
  | .highFirst, a, b => 256 * a.toNat + b.toNat
  | .lowFirst, a, b => 256 * b.toNat + a.toNat

/-- The values of the pairs of bytes; a byte that is left over has none. -/
def ByteOrder.values (o : ByteOrder) : Bytes → List Nat
  | a :: b :: bs => o.value a b :: o.values bs
  | _ => []

/-- Whether a value is the first half of a character. -/
def isFirstHalf (u : Nat) : Bool := 0xd800 ≤ u && u < 0xdc00

/-- The character of a first half and the value behind it.  Whatever that value is, its
    ten last binary digits are taken. -/
def joined (u v : Nat) : Char := Char.ofNat (0x10000 + 1024 * (u - 0xd800) + v % 1024)

/-- The character of a value that is no first half.  A second half, and a value that is
    never a character, becomes a NUL, which fits in no document. -/
def single (u : Nat) : Char := if u < 0xfffe then Char.ofNat u else Char.ofNat 0

/-- The characters that values of pairs stand for. -/
def charactersOf : List Nat → Text
  | u :: v :: vs =>
    if isFirstHalf u then joined u v :: charactersOf vs else single u :: charactersOf (v :: vs)
  | [u] => [if isFirstHalf u then torn else single u]
  | [] => []

/-! ### Sources -/

/-- The text of a document, how it is written, and whether a byte is left over behind
    it. -/
structure Source where
  text : Text
  width : Width := .narrow
  isCut : Bool := false

namespace Source

def ofBytes (o : ByteOrder) (bs : Bytes) : Source :=
  { text := charactersOf (o.values bs), width := .wide, isCut := bs.length % 2 = 1 }

/-- The document that a text holds.  Where characters are not cut, the one that stands
    for half a character is replaced by another that fits in no document either. -/
def ofText (t : Text) : Source :=
  match Utf8.encode (t.take 2) with
  | 0 :: _ => ofBytes .highFirst (Utf8.encode t)
  | _ :: 0 :: _ => ofBytes .lowFirst (Utf8.encode t)
  | _ => { text := t.map fun c => if c = torn then '\uFFFE' else c }

def size (s : Source) : Nat := s.width.size s.text

end Source
end ScriptModule.Markup
