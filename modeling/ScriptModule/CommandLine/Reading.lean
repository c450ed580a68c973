/-
  ScriptModule/CommandLine/Reading.lean
  =====================================
  **Reading a command line.**  The arguments are acted on from left to right, and the
  first mistake ends the reading.  What no grammar accounts for is kept, to be refused
  at the end.
-/
import ScriptModule.CommandLine.Argument
import ScriptModule.Text.Numeral

namespace ScriptModule

/-! ### One option argument -/

/-- What an option argument comes to: options with their values, and one whose value is
    the next argument. -/
structure Expansion where
  uses : List (Switch × Text)
  awaiting : Option Switch := none

namespace Expansion

def after (s : Switch) (e : Expansion) : Expansion := { e with uses := (s, []) :: e.uses }

def bare (s : Switch) : Expansion := if s.takesValue then ⟨[], some s⟩ else ⟨[(s, [])], none⟩

/-- An option with text behind it: its value, or further letters behind a letter. -/
def attached (g : Grammar) (s : Switch) (letter : Bool) (t : Text) :
    Except UsageError Expansion :=
  if s.takesValue then .ok ⟨[(s, t)], none⟩
  else
    match t with
    | [] => .error (.unusedValue s [])
    | c :: r =>
      match if letter then g.switch? ['-', c] else none with
      | none => .error (.unusedValue s (c :: r))
      | some s' =>
        (if r.isEmpty then .ok (bare s') else attached g s' true r).map (after s)

def ofUse (g : Grammar) (u : Use) : Except UsageError Expansion :=
  match u.attached with
  | none => .ok (bare u.switch)
  | some t => attached g u.switch (u.name.length == 2) t

end Expansion

/-! ### All arguments -/

/-- What has been read: options with their values, the operand, at the front of the line
    all that follows it, and what is not accounted for. -/
structure Reading where
  uses : List (Switch × Text) := []
  operand : Option Text := none
  rest : List Text := []
  extras : List Text := []
deriving Repr

namespace Reading

def values (r : Reading) (s : Switch) : List Text :=
  (r.uses.filter fun u => u.1 = s).map Prod.snd

def has (r : Reading) (s : Switch) : Bool := !(r.values s).isEmpty

/-- Keeps what is not accounted for. -/
def leave (r : Reading) (ts : List Text) : Reading := { r with extras := r.extras ++ ts }

/-- Whether a value is the mark, which says nothing in the place of a value. -/
def isVoid (value : Text) : Bool := value == Argument.mark.text

def use (g : Grammar) (r : Reading) (s : Switch) (value : Text) : Except Interruption Reading :=
  if s = .help then .error (.help g)
  else if s = .maxDepth && !isVoid value && (Numeral.readInteger value).isNone then
    .error (.misuse g (.notInteger s value))
  else .ok { r with uses := r.uses ++ [(s, value)] }

def useAll (g : Grammar) (r : Reading) : List (Switch × Text) → Except Interruption Reading
  | [] => .ok r
  | (s, v) :: us =>
    match r.use g s v with
    | .error i => .error i
    | .ok r => r.useAll g us

/-- Reads arguments from left to right.  A mark next to the operand belongs to it. -/
def read (g : Grammar) (r : Reading) (as : List Argument) : Except Interruption Reading :=
  match as with
  | [] => .ok r
  | .unknown t :: as => (r.leave [t]).read g as
  | .plain t :: as =>
    if g.isFront then .ok { r with operand := some t, rest := as.map Argument.text }
    else if r.operand.isSome then (r.leave [t]).read g as
    else
      match as with
      | .mark :: as => { r with operand := some t }.read g as
      | as => { r with operand := some t }.read g as
  | .mark :: as =>
    match as with
    | .plain t :: as =>
      if g.isFront then
        .ok { r with operand := some Argument.mark.text, rest := t :: as.map Argument.text }
      else if r.operand.isSome then (r.leave [Argument.mark.text, t]).read g as
      else { r with operand := some t }.read g as
    | as => (r.leave [Argument.mark.text]).read g as
  | .option _ u :: as =>
    match Expansion.ofUse g u with
    | .error e => .error (.misuse g e)
    | .ok ⟨us, none⟩ =>
      match r.useAll g us with
      | .error i => .error i
      | .ok r => r.read g as
    | .ok ⟨us, some s⟩ =>
      match as with
      | .plain v :: as =>
        match r.useAll g (us ++ [(s, v)]) with
        | .error i => .error i
        | .ok r => r.read g as
      | _ => .error (.misuse g (.missingValue s))
termination_by as.length

/-- Reads a line by a grammar, whose operand has to be there. -/
def ofLine (g : Grammar) (line : List Text) : Except Interruption Reading :=
  match Argument.readAll g line with
  | .error e => .error (.misuse g e)
  | .ok as =>
    match ({} : Reading).read g as with
    | .error i => .error i
    | .ok r => if r.operand.isSome then .ok r else .error (.misuse g (.missingOperand g.operand))

end Reading
end ScriptModule
