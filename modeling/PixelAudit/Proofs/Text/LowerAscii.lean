/-
Texts whose lower-case form is ASCII.

The full mapping folds the letters of an ASCII text one by one. It leaves characters beyond ASCII beyond it, all but the
Kelvin sign, which becomes the letter k. So a text that has the lower-case form of an ASCII text is that text up to the
case of its letters, except that Kelvin signs may stand for its k's.

Main results: `lower_of_isAscii` (the form of an ASCII text), `exists_mem_lowerAt` (the form of a character beyond
ASCII), `lower_determines_iff` (when the form determines a text up to the case of letters).
-/
import PixelAudit.Proofs.Text.AsciiCase
import Mathlib.Tactic

namespace PixelAudit.Text

def IsAscii (s : String) : Prop := ∀ c ∈ s.toList, c.toNat < 0x80

instance (s : String) : Decidable (IsAscii s) := List.decidableBAll (fun c : Char => c.toNat < 0x80) s.toList

/-- the sign of the unit of temperature, a character of its own -/
def kelvinSign : Char := '\u212A'

/-! ## Characters of ASCII -/

theorem lowerAt_of_lt {c : Char} (h : c.toNat < 0x80) (before after : List Char) :
    lowerAt before c after = [c.toLower] := by
  have hsigma : c ≠ 'Σ' := by
    rintro rfl
    exact absurd h (by decide)
  rw [lowerAt, if_neg hsigma, lowerChar, if_pos h]

theorem lowerFrom_of_lt {cs : List Char} (h : ∀ c ∈ cs, c.toNat < 0x80) (before : List Char) :
    lowerFrom before cs = cs.map Char.toLower := by
  induction cs generalizing before with
  | nil => rfl
  | cons c cs ih =>
    rw [lowerFrom, lowerAt_of_lt (h c List.mem_cons_self), ih fun d hd => h d (List.mem_cons_of_mem c hd)]
    rfl

/-- the letters of an ASCII text are folded one by one -/
theorem lower_of_isAscii {s : String} (h : IsAscii s) : lower s = s.toLower := by
  rw [← String.toList_inj, toList_toLower, lower, String.toList_ofList, lowerFrom_of_lt h]

theorem toNat_toLower_lt_iff (c : Char) : c.toLower.toNat < 0x80 ↔ c.toNat < 0x80 := by
  induction c using char_cases with
  | hascii code hcode => revert code; decide
  | hother c hc => rw [toLower_eq_self hc]

theorem isAscii_toLower_iff (s : String) : IsAscii s.toLower ↔ IsAscii s := by
  rw [IsAscii, IsAscii, toList_toLower, List.forall_mem_map]
  simp only [toNat_toLower_lt_iff]

/-! ## Characters beyond ASCII -/

/-- the letters of a run stay beyond ASCII, and are characters, unless the run is the Kelvin sign -/
theorem lowerRuns_beyond : ∀ run ∈ lowerRuns, run.first = 0x212A ∧ run.last = 0x212A ∧ run.image = 0x6B ∨
    0x80 ≤ run.image ∧ (run.image + (run.last - run.first) < 0xD800 ∨
      0xE000 ≤ run.image ∧ run.image + (run.last - run.first) < 0x110000) := by
  decide +kernel

theorem toNat_ofNat {code : Nat} (h : code < 0xD800 ∨ 0xE000 ≤ code ∧ code < 0x110000) :
    (Char.ofNat code).toNat = code := by
  have hvalid : code.isValidChar := by
    rcases h with h | ⟨hlow, hhigh⟩
    · exact Or.inl h
    · exact Or.inr ⟨by omega, hhigh⟩
  rw [Char.ofNat, dif_pos hvalid]
  rfl

theorem apply?_beyond {run : CaseRun} (hrun : run ∈ lowerRuns) {code image : Nat} (h : run.apply? code = some image) :
    code = 0x212A ∧ image = 0x6B ∨ 0x80 ≤ (Char.ofNat image).toNat := by
  unfold CaseRun.apply? at h
  split_ifs at h with hbounds
  obtain ⟨hfirst, hlast, -⟩ := hbounds
  obtain rfl := Option.some.inj h
  rcases lowerRuns_beyond run hrun with ⟨hkelvin, hkelvin', himage⟩ | ⟨himage, hvalid⟩
  · exact Or.inl ⟨by omega, by omega⟩
  · right
    rw [toNat_ofNat (by omega)]
    omega

/-- the form of a character beyond ASCII goes beyond it too, unless it is the Kelvin sign -/
theorem exists_mem_lowerChar {c : Char} (h : 0x80 ≤ c.toNat) :
    ∃ d ∈ lowerChar c, 0x80 ≤ d.toNat ∨ c = kelvinSign ∧ d = 'k' := by
  unfold lowerChar
  rw [if_neg (by omega)]
  split_ifs with hdotted
  · exact ⟨'\u0307', by decide, Or.inl (by decide)⟩
  · split
    · rename_i code hcode
      obtain ⟨run, hrun, happly⟩ := List.exists_of_findSome?_eq_some hcode
      refine ⟨_, List.mem_singleton_self _, ?_⟩
      rcases apply?_beyond hrun happly with ⟨hkelvin, rfl⟩ | hbeyond
      · have hsign : c = kelvinSign := by rw [← Char.ofNat_toNat c, hkelvin]; rfl
        exact Or.inr ⟨hsign, rfl⟩
      · exact Or.inl hbeyond
    · exact ⟨c, List.mem_singleton_self c, Or.inl h⟩

theorem exists_mem_lowerAt {c : Char} (h : 0x80 ≤ c.toNat) (before after : List Char) :
    ∃ d ∈ lowerAt before c after, 0x80 ≤ d.toNat ∨ c = kelvinSign ∧ d = 'k' := by
  unfold lowerAt
  split_ifs
  · exact ⟨'ς', by decide, Or.inl (by decide)⟩
  · exact ⟨'σ', by decide, Or.inl (by decide)⟩
  · exact exists_mem_lowerChar h

/-- a text has the forms of all its characters -/
theorem exists_lowerAt_subset {c : Char} {cs : List Char} (h : c ∈ cs) (before : List Char) :
    ∃ before' after, lowerAt before' c after ⊆ lowerFrom before cs := by
  induction cs generalizing before with
  | nil => cases h
  | cons d cs ih =>
    rw [lowerFrom]
    rcases List.mem_cons.1 h with rfl | h
    · exact ⟨before, cs, List.subset_append_left _ _⟩
    · obtain ⟨before', after, hsubset⟩ := ih h (d :: before)
      exact ⟨before', after, List.Subset.trans hsubset (List.subset_append_right _ _)⟩

/-- a character beyond ASCII shows in the lower-case form, or it is a Kelvin sign and shows as a k -/
theorem exists_mem_lower {s : String} {c : Char} (hc : c ∈ s.toList) (h : 0x80 ≤ c.toNat) :
    ∃ d ∈ (lower s).toList, 0x80 ≤ d.toNat ∨ d = 'k' := by
  obtain ⟨before, after, hsubset⟩ := exists_lowerAt_subset hc []
  obtain ⟨d, hd, hcase⟩ := exists_mem_lowerAt h before after
  rw [lower, String.toList_ofList]
  exact ⟨d, hsubset hd, hcase.imp_right And.right⟩

/-! ## Texts with the same lower-case form -/

/-- without a k the form of an ASCII text determines it up to the case of letters -/
theorem toLower_eq_of_lower_eq {s t : String} (hs : IsAscii s) (hk : 'k' ∉ s.toLower.toList)
    (h : lower t = lower s) : t.toLower = s.toLower := by
  have ht : IsAscii t := by
    intro c hc
    by_contra hbeyond
    obtain ⟨d, hd, hcase⟩ := exists_mem_lower hc (by omega : 0x80 ≤ c.toNat)
    rw [h, lower_of_isAscii hs] at hd
    rcases hcase with hd' | rfl
    · have hlt := (isAscii_toLower_iff s).2 hs d hd
      omega
    · exact hk hd
  rw [← lower_of_isAscii ht, h, lower_of_isAscii hs]

/-- the text with Kelvin signs for its k's -/
def withKelvin (s : String) : String :=
  String.ofList (s.toList.map fun c => if c.toLower = 'k' then kelvinSign else c)

theorem lowerFrom_withKelvin {cs : List Char} (h : ∀ c ∈ cs, c.toNat < 0x80) (before : List Char) :
    lowerFrom before (cs.map fun c => if c.toLower = 'k' then kelvinSign else c) = cs.map Char.toLower := by
  induction cs generalizing before with
  | nil => rfl
  | cons c cs ih =>
    rw [List.map_cons, lowerFrom, ih fun d hd => h d (List.mem_cons_of_mem c hd), List.map_cons]
    refine congrArg (· ++ cs.map Char.toLower) (?_ : _ = [c.toLower])
    split_ifs with hk
    · rw [hk]
      exact (by decide : lowerChar kelvinSign = ['k'])
    · exact lowerAt_of_lt (h c List.mem_cons_self) _ _

theorem lower_withKelvin {s : String} (h : IsAscii s) : lower (withKelvin s) = lower s := by
  rw [lower_of_isAscii h, ← String.toList_inj, toList_toLower, lower, withKelvin, String.toList_ofList,
    String.toList_ofList, lowerFrom_withKelvin h]

theorem kelvinSign_mem_withKelvin {s : String} (h : 'k' ∈ s.toLower.toList) : kelvinSign ∈ (withKelvin s).toList := by
  rw [toList_toLower] at h
  obtain ⟨c, hc, hk⟩ := List.mem_map.1 h
  rw [withKelvin, String.toList_ofList]
  exact List.mem_map.2 ⟨c, hc, if_pos hk⟩

/-- The lower-case form of an ASCII text determines it up to the case of letters exactly if it has no k. -/
theorem lower_determines_iff {s : String} (hs : IsAscii s) :
    (∀ t, lower t = lower s → t.toLower = s.toLower) ↔ 'k' ∉ s.toLower.toList := by
  constructor
  · intro h hk
    have hsame := h (withKelvin s) (lower_withKelvin hs)
    have hascii : IsAscii (withKelvin s) := by
      rw [← isAscii_toLower_iff, hsame, isAscii_toLower_iff]
      exact hs
    exact absurd (hascii _ (kelvinSign_mem_withKelvin hk)) (by decide)
  · intro hk t
    exact toLower_eq_of_lower_eq hs hk

end PixelAudit.Text
