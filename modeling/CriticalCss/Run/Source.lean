import CriticalCss.Files
import CriticalCss.Run.Error
import CriticalCss.Text.Blank

/-!
# Where the source style sheet comes from
-/

namespace CriticalCss

/-- The source of the style sheet that is split. -/
inductive CssSource where
  | inline (css : String)
  | file (path : String)
  /-- The style sheets of the first page. -/
  | firstPage
deriving DecidableEq

namespace CssSource

/-- The source that an option means: text that ends in `.css`, up to white space, is the path of a
file, and any other text is the style sheet itself. -/
def ofOption : Option String → CssSource
  | none => .firstPage
  | some css =>
    if ".css".toList.isSuffixOf (Text.dropBlanksRight css.toList) then .file (Text.trim css)
    else .inline css

/-- The style sheet, unless a page has to be asked for it.  A file with nothing but white space
counts as an error. -/
def read (files : Files) : CssSource → Except RunError (Option String)
  | .inline css => .ok (some css)
  | .firstPage => .ok none
  | .file path =>
    match files.read path with
    | .error fault => .error (.source path (.unreadable fault))
    | .ok css => if Text.isAllBlank css then .error (.source path .emptyFile) else .ok (some css)

end CssSource

end CriticalCss
