/-
The segments that may follow the name of a family in the name of an event.

A family that declares no suffix, nor inherits one, takes any. Otherwise the segments at the end that match a common
suffix are set aside, and the others must match the declared suffixes position by position; declared suffixes may be
left out from the end.
-/
import PixelAudit.Schema.ValueCheck

namespace PixelAudit

/-- the rules for one segment; letters are always folded -/
structure SegmentMatcher where
  label : String
  value : ValueCheck

namespace SegmentMatcher

def compile (spec : SuffixSpec) : Except DefinitionFault SegmentMatcher := do
  return ⟨spec.label, ← ValueCheck.compile spec.rules true⟩

def accepts (m : SegmentMatcher) (segment : String) : Bool := m.value.accepts segment

end SegmentMatcher

inductive SuffixesMatcher where
  /-- nothing is declared -/
  | any
  | positional (declared common : List SegmentMatcher)

namespace SuffixesMatcher

def compile (specs : List SuffixSpec) (ctx : CompileContext) : Except DefinitionFault SuffixesMatcher := do
  if specs.isEmpty then return .any
  let declared ← specs.mapM SegmentMatcher.compile
  let common ← ctx.commonSuffixes.values.mapM SegmentMatcher.compile
  return .positional declared common

/-- the segments of what follows the name, letters folded -/
def segments (remainder : String) : List String := Text.pieces '.' (Text.lower remainder)

/-- the segments without those at the end that match a common suffix -/
def withoutCommon (common : List SegmentMatcher) (segments : List String) : List String :=
  (segments.reverse.dropWhile fun s => common.any fun c => c.accepts s).reverse

/-- the first position whose segment does not match, with what is declared there -/
def mismatch? (position : Nat) : List SegmentMatcher → List String → Option (Nat × String)
  | m :: ms, s :: ss => if m.accepts s then mismatch? (position + 1) ms ss else some (position, m.label)
  | _, _ => none

/-- what is wrong with the segments after the name of the family -/
def check (m : SuffixesMatcher) (remainder : String) : Option Violation :=
  match m with
  | .any => none
  | .positional declared common =>
    if remainder = "" then none
    else
      let own := withoutCommon common (segments remainder)
      if declared.length < own.length then some ⟨.noFurtherSuffix, remainder⟩
      else (mismatch? 0 declared own).map fun (position, label) => ⟨.validSuffix position label, remainder⟩

def accepts (m : SuffixesMatcher) (remainder : String) : Bool := (m.check remainder).isNone

end SuffixesMatcher

end PixelAudit
