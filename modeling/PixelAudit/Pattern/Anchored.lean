/-
Patterns for whole texts: a pattern is put between the tests for start and end of the text as it is written, and then
searched for.
-/
import PixelAudit.Pattern.Parser

namespace PixelAudit

open Text (CodeSet)

/-- a pattern that has been understood -/
structure Pattern where
  /-- the pattern as it is written -/
  source : String
  expr : Pattern.Expr CodeSet Pattern.Look

namespace Pattern

/-- the pattern between the tests for start and end -/
def anchored (source : String) : String := "^(?:" ++ source ++ ")$"

/-- understand a pattern; `none` if it is refused -/
def compile? (source : String) (ignoreCase : Bool) : Option Pattern :=
  (parse? (anchored source) ignoreCase).map (Pattern.mk source)

/-- the text has the form that the pattern asks for -/
def accepts (p : Pattern) (text : String) : Bool := p.expr.foundIn text.toList

end Pattern

end PixelAudit
