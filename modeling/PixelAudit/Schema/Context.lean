/-
What a catalog is compiled with besides the definitions: the common parameters and suffixes, the parameters to ignore,
the experiments that run, the least version of the product, and whether letters are folded to lower case.
-/
import PixelAudit.Definition.Record

namespace PixelAudit

/-- the variants that run, by experiment; an experiment is listed once a variant of it runs -/
abbrev Experiments := Dict NameSet

namespace Experiments

def enable (e : Experiments) (experiment variant : String) : Experiments :=
  e.insert experiment ((e.getD experiment ∅).insert variant)

/-- one of the variants of the gate runs -/
def isActive (e : Experiments) (gate : ExperimentGate) : Bool :=
  match e.find? gate.id with
  | some running => gate.variants.any running.contains
  | none => false

/-- a specification without a gate is always active -/
def allows (e : Experiments) (p : ParamSpec) : Bool :=
  match p.experiment with
  | some gate => e.isActive gate
  | none => true

end Experiments

structure CompileContext where
  commonParams : ParamCatalog := ∅
  /-- allowed after the declared suffixes -/
  commonSuffixes : SuffixCatalog := ∅
  ignoreParams : NameSet := ∅
  forceLowerCase : Bool := false
  experiments : Experiments := ∅
  minVersion : Option AppVersion := none
  deriving Inhabited

/-- a text under the rule for case -/
def foldText (lowerCase : Bool) (s : String) : String := if lowerCase then Text.lower s else s

namespace CompileContext

def fold (ctx : CompileContext) (s : String) : String := foldText ctx.forceLowerCase s

end CompileContext

end PixelAudit
