/-
All rules for the events of one family: the parameters and the suffixes of the name.
-/
import PixelAudit.Schema.Params
import PixelAudit.Schema.Suffixes

namespace PixelAudit

structure FamilySchema where
  params : ParamsMatcher
  suffixes : SuffixesMatcher

namespace FamilySchema

/-- parameters most specific first, suffixes in the order of their positions -/
def compile (params : List ParamSpec) (suffixes : List SuffixSpec) (ctx : CompileContext) :
    Except DefinitionFault FamilySchema := do
  let params ← ParamsMatcher.compile params ctx
  let suffixes ← SuffixesMatcher.compile suffixes ctx
  return { params, suffixes }

/-- everything that is wrong with an event: the suffixes first, then the parameters -/
def check (s : FamilySchema) (remainder : String) (tokens : List ParamToken) : List Violation :=
  (s.suffixes.check remainder).toList ++ s.params.check tokens

end FamilySchema

end PixelAudit
