/-
  ScriptModule/Disk/Refusal.lean
  ==============================
  **Refusals.**  Why the system does not follow a path, and what is said about a file
  that is not read or not written.
-/
import ScriptModule.Text.Quoted
import ScriptModule.Text.Utf8

namespace ScriptModule

/-- Why the system does not do what it is asked. -/
inductive Refusal where
  | missing
  | busy
  | noFreeName
  | notDirectory
  | isDirectory
  | noSpace
  | nameTooLong
deriving DecidableEq, Repr

namespace Refusal

def number : Refusal → Nat
  | .missing => 2
  | .busy => 16
  | .noFreeName => 17
  | .notDirectory => 20
  | .isDirectory => 21
  | .noSpace => 28
  | .nameTooLong => 36

def words : Refusal → Text
  | .missing => "No such file or directory"
  | .busy => "Device or resource busy"
  | .noFreeName => "No usable temporary file name found"
  | .notDirectory => "Not a directory"
  | .isDirectory => "Is a directory"
  | .noSpace => "No space left on device"
  | .nameTooLong => "File name too long"

def text (r : Refusal) : Text := "[Errno " ++ Text.ofNat r.number ++ "] " ++ r.words

end Refusal

/-- Why a file is not read or written. -/
inductive FileError where
  | failed (r : Refusal)
  | refused (r : Refusal) (path : Text)
  | notReplaced (r : Refusal) (spare path : Text)    -- the new file did not take its place
  | undecodable (m : Utf8.Mistake)
deriving DecidableEq, Repr

def FileError.message : FileError → Text
  | .failed r => r.text
  | .refused r path => r.text ++ ": " ++ Text.quoted path
  | .notReplaced r spare path =>
    r.text ++ ": " ++ Text.quoted spare ++ " -> " ++ Text.quoted path
  | .undecodable m => m.message

end ScriptModule
