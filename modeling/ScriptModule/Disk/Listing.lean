/-
  ScriptModule/Disk/Listing.lean
  ==============================
  **Directories.**  A listing holds the entries of a directory in the order in which they
  are listed, files with their bytes and directories with their own listings.  A place
  below it is named by components without parents; `node?` says what stands there, and
  every change is stated through it.
-/
import ScriptModule.Text.Utf8

namespace ScriptModule

/-- The entries of a directory. -/
inductive Listing where
  | nil
  | file (name : Text) (content : Bytes) (rest : Listing)
  | directory (name : Text) (entries rest : Listing)
deriving DecidableEq, Repr

/-- What an entry of a directory is. -/
inductive Node where
  | file (content : Bytes)
  | directory (entries : Listing)
deriving DecidableEq, Repr

namespace Listing

def cons (name : Text) (rest : Listing) : Node → Listing
  | .file c => .file name c rest
  | .directory d => .directory name d rest

/-! ### Looking up -/

def find? (name : Text) : Listing → Option Node
  | .nil => none
  | .file n c r => if n = name then some (.file c) else r.find? name
  | .directory n d r => if n = name then some (.directory d) else r.find? name

/-- What stands at a place below a directory; nothing stands below a file. -/
def node? (l : Listing) : List Text → Option Node
  | [] => some (.directory l)
  | n :: ns =>
    match l.find? n with
    | some (.directory d) => d.node? ns
    | some (.file c) => if ns.isEmpty then some (.file c) else none
    | none => none

/-! ### Changing -/

/-- The listing with an entry, in the place of one of the same name or at the end. -/
def set (name : Text) (x : Node) : Listing → Listing
  | .nil => cons name .nil x
  | .file n c r => if n = name then cons name r x else .file n c (r.set name x)
  | .directory n d r => if n = name then cons name r x else .directory n d (r.set name x)

/-- The directory of a name, empty if there is none. -/
def subdirectory (l : Listing) (name : Text) : Listing :=
  match l.find? name with
  | some (.directory d) => d
  | _ => .nil

/-- The listing with something at a place; directories on the way are made. -/
def put (l : Listing) (x : Node) : List Text → Listing
  | [] => l
  | [n] => l.set n x
  | n :: m :: ns => l.set n (.directory ((l.subdirectory n).put x (m :: ns)))

/-- The listing without the entry of a name. -/
def erase (name : Text) : Listing → Listing
  | .nil => .nil
  | .file n c r => if n = name then r else .file n c (r.erase name)
  | .directory n d r => if n = name then r else .directory n d (r.erase name)

/-- The listing without what stands at a place. -/
def remove (l : Listing) : List Text → Listing
  | [] => l
  | [n] => l.erase n
  | n :: m :: ns =>
    match l.find? n with
    | some (.directory d) => l.set n (.directory (d.remove (m :: ns)))
    | _ => l

/-- The listing with what stands at one place moved to another. -/
def move (l : Listing) (source target : List Text) : Listing :=
  match l.node? source with
  | some x => (l.remove source).put x target
  | none => l

/-- The listing with a directory at a place, unless something stands there. -/
def putDirectory (l : Listing) (place : List Text) : Listing :=
  if (l.node? place).isSome then l else l.put (.directory .nil) place

@[simp] theorem find?_cons_self (name : Text) (r : Listing) (x : Node) :
    (cons name r x).find? name = some x := by
  cases x <;> simp [cons, find?]

theorem find?_cons_of_ne {m name : Text} (h : name ≠ m) (r : Listing) (x : Node) :
    (cons name r x).find? m = r.find? m := by
  cases x <;> simp [cons, find?, h]

@[simp] theorem find?_set_self (name : Text) (x : Node) (l : Listing) :
    (l.set name x).find? name = some x := by
  induction l with
  | nil => simp [set]
  | file n c r ih => by_cases h : n = name <;> simp [set, find?, h, ih]
  | directory n d r _ ih => by_cases h : n = name <;> simp [set, find?, h, ih]

theorem find?_set_of_ne {m name : Text} (h : name ≠ m) (x : Node) (l : Listing) :
    (l.set name x).find? m = l.find? m := by
  induction l with
  | nil => simp [set, find?_cons_of_ne h]
  | file n c r ih =>
    by_cases hn : n = name
    · simp [set, hn, find?_cons_of_ne h, find?, h]
    · simp [set, hn, find?, ih]
  | directory n d r _ ih =>
    by_cases hn : n = name
    · simp [set, hn, find?_cons_of_ne h, find?, h]
    · simp [set, hn, find?, ih]

theorem node?_put_self (l : Listing) (x : Node) {place : List Text} (h : place ≠ []) :
    (l.put x place).node? place = some x := by
  fun_induction put l x place with
  | case1 => exact absurd rfl h
  | case2 l n => cases x <;> simp [node?]
  | case3 l n m ns ih =>
    rw [node?, find?_set_self]
    exact ih (List.cons_ne_nil m ns)

/-! ### Files -/

/-- The files in and below a directory, with their places. -/
def files : Listing → List (List Text × Bytes)
  | .nil => []
  | .file n c r => ([n], c) :: r.files
  | .directory n d r => (d.files.map fun f => (n :: f.1, f.2)) ++ r.files

def isHidden (name : Text) : Bool := name.head? = some '.'

/-- The places of the files in and at most `depth` directories below a directory; what
    is hidden, and what stands below something hidden, is left out. -/
def visible : Listing → Nat → List (List Text)
  | .nil, _ => []
  | .file n _ r, depth => if isHidden n then r.visible depth else [n] :: r.visible depth
  | .directory _ _ r, 0 => r.visible 0
  | .directory n d r, depth + 1 =>
    (if isHidden n then [] else (d.visible depth).map (n :: ·)) ++ r.visible (depth + 1)

end Listing
end ScriptModule
