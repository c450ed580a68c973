/-
  ScriptModule/Text/Basic.lean
  ============================
  **Text.**  Everywhere in this library a text is the list of its characters:
  offsets, columns, widths and cuts all count characters, and a cut is a `take`
  or a `drop`.  String literals are accepted where a text is expected.
-/
import ScriptModule.Unicode.Blank

namespace ScriptModule

/-- A text is the list of its characters. -/
abbrev Text := List Char

instance : Coe String Text := ⟨String.toList⟩

namespace Text

/-! ### Trimming -/

/-- The text without the longest run of `p`-characters at its end. -/
def dropEndWhile (p : Char → Bool) (t : Text) : Text := (t.reverse.dropWhile p).reverse

def trimEnd (t : Text) : Text := dropEndWhile Unicode.isBlank t

def trim (t : Text) : Text := trimEnd (t.dropWhile Unicode.isBlank)

/-! ### Splitting and joining -/

/-- The fields between the characters of a class; never empty. -/
def fieldsBy (p : Char → Bool) : Text → List Text
  | [] => [[]]
  | c :: r =>
    if p c then [] :: fieldsBy p r
    else match fieldsBy p r with
      | f :: fs => (c :: f) :: fs
      | [] => [[c]]

/-- The fields between the occurrences of a separator. -/
def fields (sep : Char) (t : Text) : List Text := fieldsBy (· == sep) t

def words (t : Text) : List Text := (fieldsBy Unicode.isBlank t).filter (!·.isEmpty)

/-- The fields in a row with `sep` between neighbours. -/
def join (sep : Text) (fs : List Text) : Text := sep.intercalate fs

/-- The text before and after the first occurrence of a character. -/
def cut? (sep : Char) (t : Text) : Option (Text × Text) :=
  match t.dropWhile (· ≠ sep) with
  | [] => none
  | _ :: r => some (t.takeWhile (· ≠ sep), r)

/-- What follows the last occurrence of a character, or the whole text. -/
def afterLast (sep : Char) (t : Text) : Text := (t.reverse.takeWhile (· ≠ sep)).reverse

/-! ### Repetition and padding -/

def times (n : Nat) (t : Text) : Text := (List.replicate n t).flatten

def padEnd (width : Nat) (t : Text) : Text := t ++ List.replicate (width - t.length) ' '

/-- The text with spaces in front of it up to a width. -/
def padStart (width : Nat) (t : Text) : Text := List.replicate (width - t.length) ' ' ++ t

/-- Every occurrence of a character gives way to a text. -/
def replaceChar (c : Char) (new : Text) (t : Text) : Text :=
  t.flatMap fun d => if d = c then new else [d]

def ofNat (n : Nat) : Text := Nat.toDigits 10 n

def ofInt : Int → Text
  | .ofNat n => ofNat n
  | .negSucc n => '-' :: ofNat (n + 1)

/-! ### Order -/

/-- Whether `a` stands before or at `b` in the order by code points. -/
def le : Text → Text → Bool
  | [], _ => true
  | _ :: _, [] => false
  | a :: as, b :: bs => a.toNat < b.toNat || (a == b && le as bs)

end Text
end ScriptModule
