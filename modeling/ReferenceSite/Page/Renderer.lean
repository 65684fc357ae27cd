import ReferenceSite.FileTree
import ReferenceSite.Page.Layout
import ReferenceSite.Page.View
import ReferenceSite.Template.Evaluation
import ReferenceSite.Template.Reader

/-!
# Rendering pages

A renderer turns a page into its text. The renderers of this module evaluate the page template on the view
of the page; the templates of `ReferenceSite.Layout` may be replaced by files of the same names. The text of
a page ends with exactly one line break.
-/

namespace ReferenceSite

/-- Why there is no text. -/
inductive RenderError where
  /-- A template is malformed. -/
  | malformed
  /-- A template cannot be read as text. -/
  | unreadable (path : Path)
  /-- A template cannot be evaluated. -/
  | failed (error : Template.EvalError)
deriving DecidableEq, Repr

/-- The message of an error, up to the part that the template language would add. -/
def RenderError.message : RenderError → String
  | malformed => "Template error:"
  | unreadable path => "Failed to read template " ++ path ++ ": stream did not contain valid UTF-8"
  | failed _ => "Template error:"

/-- A way to turn a page and the addresses of its links into text. -/
abbrev Renderer := Page → Links → Except RenderError String

namespace Renderer

/-- The templates that come with the library. -/
def bundled : Template.Library := [(Layout.pageName, Layout.page), (Layout.membersName, Layout.members)]

/-- A template: from its file in a directory if there is one, else the bundled one. -/
def loadTemplate (t : FileTree) (directory : Option Path) (name : String)
    (nodes : List Template.Node) : Except RenderError (List Template.Node) :=
  match directory.map (Path.join · name) with
  | none => .ok nodes
  | some path =>
    if t.isFile path then
      match t.readText path with
      | .error _ => .error (.unreadable path)
      | .ok text =>
        match Template.ofText? text with
        | some nodes => .ok nodes
        | none => .error .malformed
    else .ok nodes

/-- The templates, those in a directory replacing the bundled ones of the same names. -/
def loadLibrary (t : FileTree) (directory : Option Path) : Except RenderError Template.Library :=
  bundled.mapM fun (name, nodes) => do return (name, ← loadTemplate t directory name nodes)

/-- The renderer with some templates and with code in a given language. -/
def ofLibrary (library : Template.Library) (language : String) : Renderer := fun page links =>
  match library.lookup Layout.pageName with
  | none => .error (.failed .unknownTemplate)
  | some nodes =>
    match Template.render library nodes ((page.view language links).templateVariables page) with
    | .error e => .error (.failed e)
    | .ok text => .ok (Text.trimmedEnd text ++ "\n")

end Renderer

end ReferenceSite
