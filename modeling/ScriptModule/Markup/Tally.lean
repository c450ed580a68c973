/-
  ScriptModule/Markup/Tally.lean
  ==============================
  **How much a document may stand for.**  A short document stands for a long text where
  entities are used many times.  So a tally is kept of the bytes that are read, in the
  document itself and in entities; a document that makes too much of what it holds is
  refused.
-/
import ScriptModule.Text.Basic

namespace ScriptModule.Markup

/-! ### Tallies -/

/-- What bytes count as that are read. -/
inductive Account where
  | uncounted      -- they have been counted before
  | direct         -- they stand in the document
  | indirect       -- an entity stands for them
deriving DecidableEq, Repr

/-- How many bytes have been read. -/
structure Tally where
  direct : Nat := 0
  indirect : Nat := 0
deriving DecidableEq, Repr

namespace Tally

def total (t : Tally) : Nat := t.direct + t.indirect

def add (t : Tally) (a : Account) (n : Nat) : Tally :=
  match a with
  | .uncounted => t
  | .direct => { t with direct := t.direct + n }
  | .indirect => { t with indirect := t.indirect + n }

/-! ### The limit -/

/-- With fewer bytes than this, nothing is refused. -/
def activation : Nat := 8388608

/-- The greatest quotient of all bytes by the direct ones. -/
def factor : Nat := 100

/-- How many binary digits the numbers have that are compared. -/
def precision : Nat := 24

/-- The nearest number that has no other digits than zeros behind the first ones; of two
    as near, the one whose last digit in front of them is zero. -/
def rounded (n : Nat) : Nat :=
  let unit := Nat.pow 2 (n.log2 + 1 - precision)
  let digits := n / unit
  let rest := n % unit
  if 2 * rest < unit || (2 * rest = unit && digits % 2 = 0) then digits * unit
  else (digits + 1) * unit

/-- Whether the quotient is above the factor.  The quotient is rounded as well: the next
    number of its digits above the factor is greater by a part in 2 to the 17th, so what
    lies above the middle counts. -/
def isExcessive (t : Tally) : Bool :=
  activation ≤ t.total &&
    rounded t.direct * (factor * Nat.pow 2 18 + 1) < rounded t.total * Nat.pow 2 18

/-- Counts a token that is read, unless that makes too much. -/
def read (t : Tally) (a : Account) (size : Nat) : Option Tally :=
  if size = 0 || a = .uncounted then some t
  else
    let t := t.add a size
    if t.isExcessive then none else some t

/-! ### Laws -/

theorem total_add {t : Tally} {a : Account} {n : Nat} (h : a ≠ .uncounted) :
    (t.add a n).total = t.total + n := by
  cases a <;> simp_all [add, total] <;> omega

/-- A short tally is never too much. -/
theorem isExcessive_of_lt {t : Tally} (h : t.total < activation) : t.isExcessive = false := by
  simp [isExcessive, Nat.not_le.2 h]

end Tally
end ScriptModule.Markup
