/-
What is left of a name after the look-up.

The way that the walk takes into the tree is a front part of the name, and what remains are the other segments, joined.
So the way and the remainder give the name back, with one exception: of a name that is used up nothing remains, and
nothing is what an empty segment at its end leaves too. The point before that segment is lost. A name with a point at
its end is judged as the name without it, whatever the rules for suffixes are; one with anything else at its end is
told from all others.

Main results: `CompiledCatalog.pieces_remainder` (the segments that remain are there to be judged),
`CompiledCatalog.remainder_eq_empty_iff` (when none is), `CompiledCatalog.remainders_eq_iff` (which names are told
apart), `Catalog.end_point_lost` (two that are not).
-/
import PixelAudit.Proofs.Catalog.Lookup
import PixelAudit.Proofs.Audit.Classification
import Mathlib.Tactic

namespace PixelAudit

open Text (pieces joined)

namespace CompiledCatalog

/-- the way from the root to the node at which the walk along the segments of a name ends -/
def way (c : CompiledCatalog) (name : String) : List String := c.root.trail (pieces '.' name)

/-- the segments of a name after those that the walk uses -/
def unmatched (c : CompiledCatalog) (name : String) : List String := (pieces '.' name).drop (c.way name).length

variable (c : CompiledCatalog) (name other : String)

theorem way_append_unmatched : c.way name ++ c.unmatched name = pieces '.' name :=
  (List.prefix_append_drop (c.root.trail_prefix (pieces '.' name))).symm

/-- the look-up gives what the node at the end of the way holds, and the segments after the way, joined -/
theorem lookup_way : ∃ node, c.root.find? (c.way name) = some node ∧
    c.lookup name = ⟨node.family, joined '.' (c.unmatched name)⟩ := by
  have hfind := (c.root.walk_trail 0 (pieces '.' name)).1
  exact ⟨_, hfind, c.lookup_eq_of_longest name (c.root.trail_prefix _) hfind
    fun longer hlonger hfound => (CompiledNode.prefix_trail hlonger hfound).length_le⟩

theorem remainder_eq : (c.lookup name).remainder = joined '.' (c.unmatched name) := by
  obtain ⟨node, -, hlookup⟩ := c.lookup_way name
  rw [hlookup]

theorem not_mem_of_mem_unmatched {p : String} (h : p ∈ c.unmatched name) : '.' ∉ p.toList :=
  Text.not_mem_of_mem_pieces '.' (List.mem_of_mem_drop h)

/-- the segments after the way are the segments of the remainder -/
theorem pieces_remainder (h : c.unmatched name ≠ []) : pieces '.' (c.lookup name).remainder = c.unmatched name := by
  rw [c.remainder_eq, Text.pieces_joined '.' _ (fun _ hp => c.not_mem_of_mem_unmatched name hp) h]

/-- nothing remains if nothing is left of the name, or an empty segment -/
theorem remainder_eq_empty_iff :
    (c.lookup name).remainder = "" ↔ c.unmatched name = [] ∨ c.unmatched name = [""] := by
  rw [c.remainder_eq, Text.joined_eq_empty_iff '.' fun _ hp => c.not_mem_of_mem_unmatched name hp]

variable {c name other}

/-- after a name that is used up an empty segment is left exactly if a point is put after it -/
theorem unmatched_eq_empty_iff (hway : c.way name = c.way other) (hname : c.unmatched name = []) :
    c.unmatched other = [""] ↔ other = name ++ "." := by
  have hused := c.way_append_unmatched name
  have hsegments := c.way_append_unmatched other
  rw [hname, List.append_nil] at hused
  rw [← hway, hused] at hsegments
  constructor
  · intro hother
    apply Text.pieces_injective '.'
    rw [← hsegments, hother]
    exact (Text.pieces_append_separator '.' name).symm
  · rintro rfl
    exact List.append_cancel_left (hsegments.trans (Text.pieces_append_separator '.' name))

/-- Two names that lead to one node. What remains of them is the same exactly if one is used up and the other has a
point more at its end; then the two are judged alike. The rules for suffixes have the segments that are left, unless
this is one empty segment: then they have none. -/
theorem remainders_eq_iff (hcase : c.lowerCase = false) (hne : name ≠ other) (hway : c.way name = c.way other) :
    ((c.lookup name).remainder = (c.lookup other).remainder ↔
      (c.unmatched name = [] ∧ other = name ++ ".") ∨ (c.unmatched other = [] ∧ name = other ++ ".")) ∧
    (c.unmatched name ≠ [] → pieces '.' (c.lookup name).remainder = c.unmatched name) ∧
    ((c.lookup name).remainder = "" ↔ c.unmatched name = [] ∨ c.unmatched name = [""]) ∧
    ((c.lookup name).remainder = (c.lookup other).remainder → ∀ versionKey cap params version,
      (Validator.mk c versionKey cap).judge ⟨name, params, version⟩ =
        (Validator.mk c versionKey cap).judge ⟨other, params, version⟩) := by
  refine ⟨?_, c.pieces_remainder name, c.remainder_eq_empty_iff name,
    fun hremainder versionKey cap params version => ?_⟩
  · have hdiffer : c.unmatched name ≠ c.unmatched other := by
      intro hsame
      apply hne
      apply Text.pieces_injective '.'
      rw [← c.way_append_unmatched name, ← c.way_append_unmatched other, hway, hsame]
    rw [c.remainder_eq, c.remainder_eq, Text.joined_eq_joined_iff '.'
      (fun _ hp => c.not_mem_of_mem_unmatched name hp) fun _ hp => c.not_mem_of_mem_unmatched other hp,
      or_iff_right hdiffer]
    refine or_congr (and_congr_right (unmatched_eq_empty_iff hway)) ?_
    rw [and_comm]
    exact and_congr_right (unmatched_eq_empty_iff hway.symm)
  · obtain ⟨node, hnode, hname⟩ := c.lookup_way name
    obtain ⟨node', hnode', hother⟩ := c.lookup_way other
    rw [← hway, hnode] at hnode'
    obtain rfl := Option.some.inj hnode'
    have hlookup : c.lookup name = c.lookup other := by
      rw [hname, hother] at hremainder ⊢
      exact congrArg (FamilyMatch.mk node.family) hremainder
    simp only [Validator.judge, Validator.eventName, hcase, foldText, Bool.false_eq_true, if_false, hlookup]
    rfl

end CompiledCatalog

namespace Catalog

open CompiledNode (exists_build_of_map)

/-- a point at the end is seen where it does not follow the way at once -/
theorem remainders_eq_iff_close : ∃ compiled,
    CompiledCatalog.build ((new ∅ ∅).addSources nestedSources).root {} = .ok compiled ∧
      compiled.way "app.close" = compiled.way "app.close." ∧
      (compiled.lookup "app.close").remainder ≠ (compiled.lookup "app.close.").remainder := by
  have hways : ((CompiledCatalog.build ((new ∅ ∅).addSources nestedSources).root {}).toOption.map fun c =>
      (c.lowerCase, c.way "app.close", c.way "app.close.")) = some (false, ["app"], ["app"]) := by decide +kernel
  obtain ⟨compiled, hbuild, h⟩ := exists_build_of_map hways
  simp only [Prod.mk.injEq] at h
  obtain ⟨hcase, hname, hother⟩ := h
  have hway : compiled.way "app.close" = compiled.way "app.close." := hname.trans hother.symm
  refine ⟨compiled, hbuild, hway, fun hsame => ?_⟩
  rcases (CompiledCatalog.remainders_eq_iff hcase (by decide) hway).1.1 hsame with ⟨hused, -⟩ | ⟨-, hpoint⟩
  · have hleft : compiled.unmatched "app.close" = ["close"] := by
      rw [CompiledCatalog.unmatched, hname]
      decide
    rw [hleft] at hused
    cases hused
  · revert hpoint
    decide

/-- the segment after the family is empty and no suffix that is declared, but it is not looked at -/
theorem end_point_lost : ∃ compiled,
    CompiledCatalog.build ((new ∅ ∅).addSources nestedSources).root {} = .ok compiled ∧
      compiled.way "app" = compiled.way "app." ∧ compiled.unmatched "app." = [""] ∧
      (compiled.lookup "app").remainder = (compiled.lookup "app.").remainder ∧
      ((Validator.mk compiled none default).judge ⟨"app.", "", none⟩).verdict = .passed ∧
      ((Validator.mk compiled none default).judge ⟨"app..", "", none⟩).verdict = .failed := by
  have hanswer : ((CompiledCatalog.build ((new ∅ ∅).addSources nestedSources).root {}).toOption.map fun c =>
      ((c.way "app", c.way "app.", c.unmatched "app."), ((c.lookup "app").remainder, (c.lookup "app.").remainder),
        ((Validator.mk c none default).judge ⟨"app.", "", none⟩).verdict,
        ((Validator.mk c none default).judge ⟨"app..", "", none⟩).verdict)) =
      some ((["app"], ["app"], [""]), ("", ""), .passed, .failed) := by decide +kernel
  obtain ⟨compiled, hbuild, h⟩ := exists_build_of_map hanswer
  simp only [Prod.mk.injEq] at h
  obtain ⟨⟨hname, hother, hleft⟩, ⟨hempty, hempty'⟩, hpassed, hfailed⟩ := h
  exact ⟨compiled, hbuild, hname.trans hother.symm, hleft, hempty.trans hempty'.symm, hpassed, hfailed⟩

end Catalog

end PixelAudit
