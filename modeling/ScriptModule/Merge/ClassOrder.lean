/-
  ScriptModule/Merge/ClassOrder.lean
  ==================================
  **The order of classes.**  A class comes after the classes of the module that it is
  based on.  Every class waits until all of these are placed; of the classes that wait
  no longer, the first one in the given order is placed next.  Classes that wait to the
  end, because their bases lead into a cycle, are left there as they were.
-/
import ScriptModule.Statement
import ScriptModule.Text.Casing

namespace ScriptModule

/-- A class with the text that defines it. -/
structure DeclaredClass extends ClassDef where
  text : Text
deriving DecidableEq, Repr

namespace ClassDef

/-! ### Bases -/

/-- The name by which a base type is found: without type arguments and namespace, in
    any case. -/
def baseKey (base : Text) : Text :=
  Text.fold (Text.afterLast '.' ((Text.trim base).takeWhile (· ≠ '[')))

/-- The index of the first class with a folded name. -/
def indexOf? (classes : List ClassDef) (key : Text) : Option Nat :=
  classes.findIdx? fun c => Text.fold c.name == key

/-- The indices of the classes that a class is based on; other base types are taken to
    be there already. -/
def localBases (classes : List ClassDef) (c : ClassDef) : List Nat :=
  c.baseTypes.filterMap fun b => indexOf? classes (baseKey b)

/-- The indices of the classes that the class at an index is based on. -/
def basesAt (classes : List ClassDef) (i : Nat) : List Nat :=
  (classes[i]?.map (localBases classes)).getD []

/-! ### Waiting -/

/-- A class and the number of its bases that are not placed yet. -/
structure Waiting where
  index : Nat
  missing : Nat

/-- What waits with all bases missing; a base that is named twice counts once. -/
def Waiting.first (bases : Nat → List Nat) (count i : Nat) : Waiting :=
  ⟨i, (List.range count).countP (bases i).contains⟩

/-- One base less is missing to what is based on the index that is placed. -/
def countDown (bases : Nat → List Nat) (placed : Nat) (ws : List Waiting) : List Waiting :=
  ws.map fun w => if (bases w.index).contains placed then ⟨w.index, w.missing - 1⟩ else w

def Waiting.isReady (w : Waiting) : Bool := w.missing == 0

/-- The indices of what is ready. -/
def released (ws : List Waiting) : List Nat := (ws.filter Waiting.isReady).map Waiting.index

/-- What is not ready. -/
def held (ws : List Waiting) : List Waiting := ws.filter fun w => !w.isReady

theorem length_countDown (bases : Nat → List Nat) (placed : Nat) (ws : List Waiting) :
    (countDown bases placed ws).length = ws.length :=
  List.length_map _

theorem length_released (ws : List Waiting) :
    (released ws).length + (held ws).length = ws.length := by
  have hsplit := List.length_eq_countP_add_countP Waiting.isReady (l := ws)
  simpa [released, held, List.countP_eq_length_filter] using hsplit.symm

/-! ### The order -/

/-- Places the least of the ready indices, each time, and releases what has waited for it. -/
def place (bases : Nat → List Nat) (ready : List Nat) (waiting : List Waiting) : List Nat :=
  match _h : ready.min? with
  | none => []
  | some i =>
    let counted := countDown bases i waiting
    i :: place bases (ready.erase i ++ released counted) (held counted)
termination_by ready.length + waiting.length
decreasing_by
  have hlen := length_released (countDown bases i waiting)
  have hmem := List.min?_mem _h
  have hpos := List.length_pos_of_mem hmem
  rw [List.length_append, List.length_erase_of_mem hmem]
  rw [length_countDown] at hlen
  omega

/-- The indices of the classes: those that can be placed, and the others as they are. -/
def order (classes : List ClassDef) : List Nat :=
  let indices := List.range classes.length
  let waiting := indices.map (Waiting.first (basesAt classes) classes.length)
  let placed := place (basesAt classes) (released waiting) (held waiting)
  placed ++ indices.filter fun i => !placed.contains i

def ordered (classes : List DeclaredClass) : List DeclaredClass :=
  (order (classes.map DeclaredClass.toClassDef)).filterMap fun i => classes[i]?

end ClassDef
end ScriptModule
