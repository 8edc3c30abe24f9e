/-
Lower-casing a dotted name as a whole, and segment by segment.

The two differ in capital sigmas only. Whether a sigma is final is judged by the letters around it, and a point between
them is looked through: in the whole name a sigma at the end of a segment is not final if the next segment goes on with
a letter, and a sigma that is a segment of its own may be final.

Main results: `lower_eq_joined_iff` (the two agree exactly if they agree on every capital sigma), `pieces_lower_iff` (the
same, of the segments), `sigmasAgree_of_not_mem` (they agree on names without a capital sigma),
`not_sigmasAgree_across_point` (they need not agree).
-/
import PixelAudit.Proofs.Text.AsciiCase
import PixelAudit.Proofs.Text.Segments
import Mathlib.Tactic

namespace PixelAudit.Text

/-! ## Points -/

theorem lowerRuns_after_point : ∀ run ∈ lowerRuns, 0x2E < run.image := by decide +kernel

theorem toLower_ne_point {c : Char} (hc : c ≠ '.') : c.toLower ≠ '.' := mt (toLower_eq_iff (by decide)).1 hc

/-- a code point past the point is another character, whether it is a character or not -/
theorem ofNat_ne_point {code : Nat} (h : 0x2E < code) : Char.ofNat code ≠ '.' := by
  intro heq
  have hpoint : (Char.ofNat code).toNat = 0x2E := by rw [heq]; rfl
  by_cases hvalid : code.isValidChar
  · have hcode : (Char.ofNat code).toNat = code := by rw [Char.ofNat, dif_pos hvalid]; rfl
    omega
  · have hzero : (Char.ofNat code).toNat = 0 := by rw [Char.ofNat, dif_neg hvalid]; rfl
    omega

/-- no other character becomes a point -/
theorem point_not_mem_lowerChar {c : Char} (hc : c ≠ '.') : '.' ∉ lowerChar c := by
  unfold lowerChar
  split_ifs with hascii hdotted
  · simpa using (toLower_ne_point hc).symm
  · decide
  · split
    · rename_i code hcode
      obtain ⟨run, hrun, happly⟩ := List.exists_of_findSome?_eq_some hcode
      have himage := lowerRuns_after_point run hrun
      unfold CaseRun.apply? at happly
      split_ifs at happly
      · obtain rfl := Option.some.inj happly
        simpa using (ofNat_ne_point (Nat.lt_add_right _ himage)).symm
    · simpa using hc.symm

/-- a point stays a point -/
theorem lowerAt_point (before after : List Char) : lowerAt before '.' after = ['.'] := rfl

theorem point_not_mem_lowerAt (before after : List Char) {c : Char} (hc : c ≠ '.') : '.' ∉ lowerAt before c after := by
  unfold lowerAt
  split_ifs
  · decide
  · decide
  · exact point_not_mem_lowerChar hc

/-- in lower case a text has as many points as before -/
theorem count_point_lowerFrom (before cs : List Char) : (lowerFrom before cs).count '.' = cs.count '.' := by
  induction cs generalizing before with
  | nil => rfl
  | cons c rest ih =>
    rw [lowerFrom, List.count_append, ih]
    by_cases hc : c = '.'
    · subst hc
      rw [lowerAt_point, List.count_singleton_self, List.count_cons_self, Nat.add_comm]
    · rw [List.count_eq_zero_of_not_mem (point_not_mem_lowerAt before rest hc), List.count_cons_of_ne hc,
        Nat.zero_add]

/-- in lower case a name has as many segments as before -/
theorem length_pieces_lower (s : String) : (pieces '.' (lower s)).length = (pieces '.' s).length := by
  rw [length_pieces, length_pieces, lower, String.toList_ofList, count_point_lowerFrom]

/-- the lower-case form of a segment is a segment -/
theorem point_not_mem_lower {s : String} (h : '.' ∉ s.toList) : '.' ∉ (lower s).toList := by
  rw [lower, String.toList_ofList, ← List.count_eq_zero, count_point_lowerFrom, List.count_eq_zero]
  exact h

/-! ## Capital sigmas -/

/-- between these letters, the last before it first, a capital sigma is final -/
def isFinalSigma (before after : List Char) : Bool := casedNext before && !casedNext after

theorem lowerAt_sigma (before after : List Char) :
    lowerAt before 'Σ' after = if isFinalSigma before after then ['ς'] else ['σ'] := rfl

theorem lowerAt_of_ne {c : Char} (hc : c ≠ 'Σ') (before after : List Char) : lowerAt before c after = lowerChar c :=
  if_neg hc

/-- letters around matter to capital sigmas only -/
theorem lowerAt_eq_iff (c : Char) (before after before' after' : List Char) :
    lowerAt before c after = lowerAt before' c after' ↔
      (c = 'Σ' → isFinalSigma before after = isFinalSigma before' after') := by
  by_cases hc : c = 'Σ'
  · subst hc
    rw [lowerAt_sigma, lowerAt_sigma]
    cases isFinalSigma before after <;> cases isFinalSigma before' after' <;> simp
  · rw [lowerAt_of_ne hc, lowerAt_of_ne hc]
    simp [hc]

theorem length_lowerAt (c : Char) (before after before' after' : List Char) :
    (lowerAt before c after).length = (lowerAt before' c after').length := by
  by_cases hc : c = 'Σ'
  · subst hc
    rw [lowerAt_sigma, lowerAt_sigma]
    split_ifs <;> rfl
  · rw [lowerAt_of_ne hc, lowerAt_of_ne hc]

/-- the characters up to the next point -/
def upToPoint (cs : List Char) : List Char := cs.takeWhile (· ≠ '.')

theorem upToPoint_cons_of_ne {c : Char} (hc : c ≠ '.') (cs : List Char) : upToPoint (c :: cs) = c :: upToPoint cs :=
  List.takeWhile_cons_of_pos (by simpa using hc)

theorem upToPoint_point (cs : List Char) : upToPoint ('.' :: cs) = [] := rfl

theorem upToPoint_append {cs : List Char} (hfree : '.' ∉ cs) {tail : List Char} (htail : upToPoint tail = []) :
    upToPoint (cs ++ tail) = cs := by
  induction cs with
  | nil => exact htail
  | cons c rest ih =>
    rw [List.mem_cons, not_or] at hfree
    rw [List.cons_append, upToPoint_cons_of_ne (Ne.symm hfree.1), ih hfree.2]

/-- each capital sigma of a name is final in its segment exactly if it is final in the name -/
def SigmasAgree (s : String) : Prop :=
  ∀ before after, s.toList = before ++ 'Σ' :: after →
    isFinalSigma before.reverse after = isFinalSigma (upToPoint before.reverse) (upToPoint after)

theorem sigmasAgree_of_not_mem {s : String} (h : 'Σ' ∉ s.toList) : SigmasAgree s := by
  intro before after hs
  rw [hs] at h
  exact absurd (List.mem_append_right before List.mem_cons_self) h

/-- the lower-case form of the rest of a text, each character between the letters of its own segment -/
def lowerSegments (before : List Char) : List Char → List Char
  | [] => []
  | c :: rest => lowerAt (upToPoint before) c (upToPoint rest) ++ lowerSegments (c :: before) rest

theorem lowerFrom_eq_lowerSegments_iff (before cs : List Char) : lowerFrom before cs = lowerSegments before cs ↔
    ∀ start after, cs = start ++ 'Σ' :: after →
      isFinalSigma (start.reverse ++ before) after =
        isFinalSigma (upToPoint (start.reverse ++ before)) (upToPoint after) := by
  induction cs generalizing before with
  | nil => simp [lowerFrom, lowerSegments]
  | cons c rest ih =>
    have hlength := length_lowerAt c before rest (upToPoint before) (upToPoint rest)
    have hsplit : lowerFrom before (c :: rest) = lowerSegments before (c :: rest) ↔
        lowerAt before c rest = lowerAt (upToPoint before) c (upToPoint rest) ∧
          lowerFrom (c :: before) rest = lowerSegments (c :: before) rest := by
      rw [lowerFrom, lowerSegments]
      constructor
      · intro h
        exact List.append_inj h hlength
      · rintro ⟨hfirst, hrest⟩
        rw [hfirst, hrest]
    rw [hsplit, lowerAt_eq_iff, ih]
    constructor
    · rintro ⟨hfirst, hrest⟩ start after heq
      cases start with
      | nil =>
        obtain ⟨rfl, rfl⟩ := List.cons.inj heq
        exact hfirst rfl
      | cons d start =>
        obtain ⟨rfl, htail⟩ := List.cons.inj heq
        simpa using hrest start after htail
    · intro h
      refine ⟨fun hc => h [] rest (by rw [hc]; rfl), fun start after heq => ?_⟩
      simpa using h (c :: start) after (by rw [heq]; rfl)

/-- a segment is lower-cased on its own -/
theorem lowerSegments_append {cs : List Char} (hfree : '.' ∉ cs) {tail : List Char} (htail : upToPoint tail = [])
    (before : List Char) : lowerSegments before (cs ++ tail) =
      lowerFrom (upToPoint before) cs ++ lowerSegments (cs.reverse ++ before) tail := by
  induction cs generalizing before with
  | nil => rfl
  | cons c rest ih =>
    rw [List.mem_cons, not_or] at hfree
    rw [List.cons_append, lowerSegments, upToPoint_append hfree.2 htail, ih hfree.2,
      upToPoint_cons_of_ne (Ne.symm hfree.1), lowerFrom, List.append_assoc, List.reverse_cons, List.append_assoc]
    rfl

theorem lowerSegments_joined {parts : List String} (hfree : ∀ p ∈ parts, '.' ∉ p.toList) {before : List Char}
    (hbefore : upToPoint before = []) :
    lowerSegments before (joined '.' parts).toList = (joined '.' (parts.map lower)).toList := by
  induction parts generalizing before with
  | nil => simp [joined, lowerSegments]
  | cons p rest ih =>
    have hp := hfree p List.mem_cons_self
    have hlower : (lower p).toList = lowerFrom [] p.toList := by rw [lower, String.toList_ofList]
    by_cases hne : rest = []
    · subst hne
      have hlast := @lowerSegments_append _ hp [] rfl before
      rw [List.append_nil, hbefore, ← hlower] at hlast
      simpa [joined, lowerSegments] using hlast
    · have hrest := @ih (fun q hq => hfree q (List.mem_cons_of_mem p hq)) ('.' :: (p.toList.reverse ++ before)) rfl
      have hmap : rest.map lower ≠ [] := by simpa using hne
      rw [joined_cons '.' p hne, List.map_cons, joined_cons '.' _ hmap]
      simp only [String.toList_append, String.toList_singleton, List.append_assoc, List.singleton_append]
      rw [lowerSegments_append hp rfl, hbefore, hlower, lowerSegments, hrest]
      rfl

/-- Lower-casing a name as a whole and segment by segment come to the same exactly if they agree on its capital
sigmas. -/
theorem lower_eq_joined_iff (s : String) : lower s = joined '.' ((pieces '.' s).map lower) ↔ SigmasAgree s := by
  have hfree : ∀ p ∈ pieces '.' s, '.' ∉ p.toList := fun p hp => not_mem_of_mem_pieces '.' hp
  have hsegments := @lowerSegments_joined _ hfree [] rfl
  rw [joined_pieces] at hsegments
  rw [← String.toList_inj, ← hsegments, lower, String.toList_ofList, lowerFrom_eq_lowerSegments_iff, SigmasAgree]
  simp only [List.append_nil]

theorem pieces_lower_iff (s : String) : pieces '.' (lower s) = (pieces '.' s).map lower ↔ SigmasAgree s := by
  rw [← lower_eq_joined_iff]
  have hne : (pieces '.' s).map lower ≠ [] := by simpa using pieces_ne_nil '.' s
  have hfree : ∀ p ∈ (pieces '.' s).map lower, '.' ∉ p.toList := by
    intro p hp
    obtain ⟨q, hq, rfl⟩ := List.mem_map.1 hp
    exact point_not_mem_lower (not_mem_of_mem_pieces '.' hq)
  constructor
  · intro h
    rw [← h, joined_pieces]
  · intro h
    rw [h, pieces_joined '.' _ hfree hne]

/-! ## A point between letters -/

open CodeSet (mem_append mem_ofTable_ofList)

theorem isCaseIgnorable_point : isCaseIgnorable '.' = true := by
  have hpoints : Property.wordPoints.mem 0x2E = true := mem_ofTable_ofList (by decide)
  have hcode : '.'.toNat = 0x2E := rfl
  rw [isCaseIgnorable, Recent.caseIgnorable, Property.caseIgnorable, hcode]
  simp only [mem_append, hpoints, Bool.or_true, Bool.true_or]

theorem casedNext_a (rest : List Char) : casedNext ('a' :: rest) = true := by
  rw [casedNext, isCaseIgnorable_of_isAlpha (by decide), isCased_of_isAlpha (by decide)]
  rfl

/-- where the letter before a capital sigma and the one after it stand on two sides of a point, the sigma is final in
its segment only -/
theorem not_sigmasAgree_across_point : ¬ SigmasAgree "aΣ.a" := by
  intro h
  have hname : "aΣ.a".toList = ['a'] ++ 'Σ' :: ['.', 'a'] := by decide
  have hreverse : ['a'].reverse = ['a'] := List.reverse_singleton
  have hbefore : upToPoint ['a'] = ['a'] := by decide
  have hnext : casedNext ['.', 'a'] = true := by rw [casedNext, isCaseIgnorable_point, if_pos rfl, casedNext_a]
  have hend : casedNext [] = false := by rw [casedNext]
  have hagree := h ['a'] ['.', 'a'] hname
  rw [hreverse, hbefore, upToPoint_point, isFinalSigma, isFinalSigma, casedNext_a, hnext, hend] at hagree
  cases hagree

end PixelAudit.Text
