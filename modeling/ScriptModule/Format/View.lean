/-
  ScriptModule/Format/View.lean
  =============================
  **Views of a format resource.**  A format resource is a document in which every view
  has a name, given by the first `Name` element directly inside of it.
-/
import ScriptModule.Markup.Element
import ScriptModule.Report.Basic

namespace ScriptModule.Format

/-- The elements that are views, in the order of the document. -/
def views (root : Markup.Element) : List Markup.Element :=
  root.all.filter fun e => e.name = ("View" : Text)

/-- The name of a view without white space around it; empty if there is none. -/
def viewName (view : Markup.Element) : Text :=
  match view.children.find? fun c => c.name = ("Name" : Text) with
  | some n => Text.trim n.text
  | none => []

def viewNames (document : Text) (filename : Option Text) : Except Report (List Text) :=
  let source := Markup.Source.ofText document
  match Markup.Element.ofSource source with
  | .error m =>
    let (line, column) := m.place source.text
    .error {
      problem := .malformedFormat (m.message source.text)
      filename := filename
      line := some line
      column := some (column + 1) }
  | .ok root =>
    (views root).mapM fun v =>
      let n := viewName v
      if n.isEmpty then .error { problem := .unnamedView, filename := filename } else .ok n

end ScriptModule.Format
