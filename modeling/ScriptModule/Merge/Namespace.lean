/-
  ScriptModule/Merge/Namespace.lean
  =================================
  **Namespace names.**  A namespace is shown in one spelling: the well-known ones
  as they are listed here, any other with a capital at the start of each segment.
-/
import ScriptModule.Text.Casing

namespace ScriptModule.Namespace

/-- The well-known namespaces in their usual spelling. -/
def wellKnown : List String := [
  "System",
  "System.Collections",
  "System.Collections.Concurrent",
  "System.Collections.Generic",
  "System.Collections.ObjectModel",
  "System.Collections.Specialized",
  "System.ComponentModel",
  "System.Data",
  "System.Data.SqlClient",
  "System.Diagnostics",
  "System.Diagnostics.CodeAnalysis",
  "System.Drawing",
  "System.Globalization",
  "System.IO",
  "System.IO.Compression",
  "System.Linq",
  "System.Management.Automation",
  "System.Management.Automation.Language",
  "System.Management.Automation.Runspaces",
  "System.Net",
  "System.Net.Http",
  "System.Net.Sockets",
  "System.Reflection",
  "System.Runtime.InteropServices",
  "System.Security",
  "System.Security.AccessControl",
  "System.Security.Cryptography",
  "System.Security.Cryptography.X509Certificates",
  "System.Security.Principal",
  "System.Text",
  "System.Text.Json",
  "System.Text.RegularExpressions",
  "System.Threading",
  "System.Threading.Tasks",
  "System.Web",
  "System.Windows.Forms",
  "System.Xml",
  "System.Xml.Linq",
  "Microsoft.PowerShell",
  "Microsoft.PowerShell.Commands",
  "Microsoft.Win32"]

def wellKnown? (name : Text) : Option Text :=
  (wellKnown.find? fun (k : String) => Text.sameName k name).map String.toList

/-- A segment with a capital at its start; segments all in capitals are acronyms and
    keep their case. -/
def segment (s : Text) : Text :=
  if Text.isAllCapitals s && 1 < s.length then s else Text.capitalize s

def canonical (name : Text) : Text :=
  let n := Text.trim name
  (wellKnown? n).getD (Text.join "." ((Text.fields '.' n).map segment))

end ScriptModule.Namespace
