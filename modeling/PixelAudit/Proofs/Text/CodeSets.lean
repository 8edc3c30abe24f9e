/-
What the operations on sets of code points hold.

A complement is made of the gaps between ranges in the order of their starts; the other operations come from it and from
the union. Tables are read from texts, character by character.

Main results: `mem_complement`, `mem_inter`, `mem_diff` (code points of the results), `mem_ofTable_ofList` (a table of
given characters).
-/
import PixelAudit.Text.CodeSet
import Mathlib.Tactic

namespace PixelAudit.Text.CodeSet

theorem mem_append (s t : CodeSet) (code : Nat) : mem (s ++ t) code = (s.mem code || t.mem code) :=
  mem_union s t code

theorem mem_cons (a b : Nat) (rest : CodeSet) (code : Nat) :
    mem ((a, b) :: rest) code = true ↔ (a ≤ code ∧ code ≤ b) ∨ rest.mem code = true := by
  simp [mem]

/-- in a set whose starts are all greater there is no such code point -/
theorem mem_eq_false_of_lt {set : CodeSet} {code : Nat} (h : ∀ r ∈ set, code < r.1) : set.mem code = false := by
  rw [mem, List.any_eq_false]
  intro r hr
  have hlt := h r hr
  simp only [Bool.and_eq_true, decide_eq_true_eq, not_and]
  omega

/-- the gaps from a code point on are all that is not in the set -/
theorem mem_gaps {set : CodeSet} (hsorted : set.Pairwise fun r s => r.1 ≤ s.1) {code : Nat} (hlast : code ≤ last)
    (start : Nat) : (gaps start set).mem code = true ↔ start ≤ code ∧ set.mem code = false := by
  induction set generalizing start with
  | nil =>
    unfold gaps
    split_ifs with hstart
    · simp [mem, hlast]
    · simp only [mem, List.any_nil, Bool.false_eq_true, and_true, false_iff]
      omega
  | cons r rest ih =>
    obtain ⟨a, b⟩ := r
    obtain ⟨hstarts, hrest⟩ := List.pairwise_cons.1 hsorted
    have hcons := mem_cons a b rest code
    rw [← Bool.not_eq_true] at ih ⊢
    rw [hcons, not_or]
    unfold gaps
    split_ifs with hgap
    · rw [mem_cons, ih hrest]
      constructor
      · rintro (⟨hfrom, hto⟩ | ⟨hfrom, hnot⟩)
        · -- a code point before the range is before all that follow
          have hbefore : mem rest code = false := by
            refine mem_eq_false_of_lt fun s hs => ?_
            have hle : a ≤ s.1 := hstarts s hs
            omega
          exact ⟨hfrom, by omega, by simp [hbefore]⟩
        · exact ⟨by omega, by omega, hnot⟩
      · rintro ⟨hfrom, hrange, hnot⟩
        by_cases hbefore : code < a
        · exact Or.inl ⟨hfrom, by omega⟩
        · exact Or.inr ⟨by omega, hnot⟩
    · rw [ih hrest]
      constructor
      · rintro ⟨hfrom, hnot⟩
        exact ⟨by omega, by omega, hnot⟩
      · rintro ⟨hfrom, hrange, hnot⟩
        exact ⟨by omega, hnot⟩

variable {code : Nat}

theorem mem_sortByStart (set : CodeSet) (code : Nat) : set.sortByStart.mem code = set.mem code := by
  unfold mem sortByStart
  exact (List.mergeSort_perm set _).any_eq

theorem pairwise_sortByStart (set : CodeSet) : set.sortByStart.Pairwise fun r s => r.1 ≤ s.1 := by
  have hpairwise := @List.pairwise_mergeSort (Nat × Nat) (fun r s => decide (r.1 ≤ s.1))
    (by intro r s t hrs hst; simp only [decide_eq_true_eq] at hrs hst ⊢; omega)
    (by intro r s; simp only [Bool.or_eq_true, decide_eq_true_eq]; omega) set
  exact hpairwise.imp fun h => by simpa using h

/-- a complement has the code points that the set has not -/
theorem mem_complement (set : CodeSet) (hlast : code ≤ last) : set.complement.mem code = !set.mem code := by
  have hgaps := mem_gaps set.pairwise_sortByStart hlast 0
  rw [mem_sortByStart] at hgaps
  rw [Bool.eq_iff_iff, complement, hgaps]
  simp

theorem mem_inter (s t : CodeSet) (hlast : code ≤ last) : (inter s t).mem code = (s.mem code && t.mem code) := by
  rw [inter, mem_complement _ hlast, mem_union, mem_complement _ hlast, mem_complement _ hlast, Bool.not_or,
    Bool.not_not, Bool.not_not]

theorem mem_diff (s t : CodeSet) (hlast : code ≤ last) : (diff s t).mem code = (s.mem code && !t.mem code) := by
  rw [diff, mem_inter _ _ hlast, mem_complement _ hlast]

/-- the code points that characters list -/
def ofChars (cs : List Char) : CodeSet := (cs.splitOnP isGap).flatMap ofItem

/-- a table is read from the characters of its text -/
theorem mem_ofTable_ofList {cs : List Char} {answer : Bool} (h : (ofChars cs).mem code = answer) :
    (ofTable (String.ofList cs)).mem code = answer := by
  rwa [ofTable, String.toList_ofList]

end PixelAudit.Text.CodeSet
