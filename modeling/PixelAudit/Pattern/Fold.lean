/-
Sets of characters that are blind to case: with a character they hold every character of the same simple case folding.
-/
import PixelAudit.Text.CodeSet
import PixelAudit.Text.FoldTable

namespace PixelAudit.Pattern

open Text (CodeSet CaseRun)

/-- the code points of a run with their folded forms -/
def runPairs (run : CaseRun) : List (Nat × Nat) :=
  (List.range ((run.last - run.first) / run.stride + 1)).map fun i =>
    (run.first + i * run.stride, run.image + i * run.stride)

/-- the code points that are not folded, with their folded forms -/
def foldPairs : List (Nat × Nat) := Text.foldRuns.flatMap runPairs

/-- a set with the folded forms of its members -/
def withFolded (set : CodeSet) : CodeSet :=
  set ++ foldPairs.filterMap fun p => if set.mem p.1 then some (p.2, p.2) else none

/-- a set with all code points whose folded forms it holds -/
def withUnfolded (set : CodeSet) : CodeSet :=
  set ++ foldPairs.filterMap fun p => if set.mem p.2 then some (p.1, p.1) else none

/-- all code points that are folded like one of the set -/
def foldCase (set : CodeSet) : CodeSet := CodeSet.normal (withUnfolded (CodeSet.normal (withFolded set)))

/-- the same within ASCII -/
def foldAscii (set : CodeSet) : CodeSet :=
  set ++ (List.range 26).filterMap (fun i => if set.mem (0x41 + i) then some (0x61 + i, 0x61 + i) else none) ++
    (List.range 26).filterMap (fun i => if set.mem (0x61 + i) then some (0x41 + i, 0x41 + i) else none)

end PixelAudit.Pattern
