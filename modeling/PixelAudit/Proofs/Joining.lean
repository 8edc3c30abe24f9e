/-
Tables whose values can be added are added name by name.

The sum of two tables has the names of both. A value that stands under a name in one of them only stands there in the
sum too; of two values the sum stands there. So tables form a commutative monoid if their values do, and a sum over all
entries of a table is additive. Sets of names are tables of values that say nothing, and their sum is their union.

Main results: `Dict.find?_add` and `Dict.getD_add` (what stands under a name in a sum), `Dict.contains_add` (the names
of a sum), `Dict.sum_add` (sums over the entries), `NameSet.union_eq_add`.
-/
import PixelAudit.Proofs.Tables
import Mathlib.Algebra.Group.PUnit
import Mathlib.Tactic

namespace PixelAudit

namespace Dict

variable {α : Type} [AddCommMonoid α]

/-- put an entry into a table beside what stands under its name already -/
def addEntry (d : Dict α) (entry : String × α) : Dict α := d.insert entry.1 (d.getD entry.1 0 + entry.2)

/-- both tables, with the sum of what they have under a name -/
def join (d e : Dict α) : Dict α := e.entries.foldl addEntry d

instance : Zero (Dict α) := ⟨∅⟩

instance : Add (Dict α) := ⟨join⟩

theorem find?_foldl_addEntry {entries : List (String × α)} (h : Entries.Sorted entries) (d : Dict α) (name : String) :
    (entries.foldl addEntry d).find? name =
      match Entries.find? name entries with
      | some value => some (d.getD name 0 + value)
      | none => d.find? name := by
  induction entries generalizing d with
  | nil => rfl
  | cons entry rest ih =>
    obtain ⟨key, value⟩ := entry
    obtain ⟨hfirst, hrest⟩ := List.pairwise_cons.1 h
    rw [List.foldl_cons, ih hrest, Entries.find?]
    by_cases hname : key = name
    · subst hname
      have hnone : Entries.find? key rest = none := Entries.find?_eq_none_of_lt hfirst
      rw [if_pos rfl, hnone, addEntry, find?_insert, if_pos rfl]
    · rw [if_neg hname]
      simp only [getD, addEntry, find?_insert, if_neg hname]

/-- what stands under a name in a sum of tables -/
theorem find?_add (d e : Dict α) (name : String) :
    (d + e).find? name =
      match e.find? name with
      | some value => some (d.getD name 0 + value)
      | none => d.find? name :=
  find?_foldl_addEntry e.sorted d name

/-- a name without a value counts as zero -/
theorem getD_add (d e : Dict α) (name : String) : (d + e).getD name 0 = d.getD name 0 + e.getD name 0 := by
  rw [getD, find?_add]
  cases he : e.find? name with
  | none => rw [getD, getD, he, Option.getD_none, add_zero]
  | some value => rw [getD, getD, he, Option.getD_some, Option.getD_some]

theorem contains_add (d e : Dict α) (name : String) :
    (d + e).contains name = true ↔ d.contains name = true ∨ e.contains name = true := by
  rw [contains, contains, contains, find?_add]
  cases e.find? name with
  | none => simp
  | some value => simp

instance : AddCommMonoid (Dict α) where
  add_assoc d e f := by
    apply ext_getD
    · intro name
      rw [getD_add, getD_add, getD_add, getD_add, add_assoc]
    · intro name
      rw [contains_add, contains_add, contains_add, contains_add, or_assoc]
  zero_add d := by
    apply ext_getD
    · intro name
      rw [getD_add]
      exact zero_add _
    · intro name
      rw [contains_add]
      exact or_iff_right Bool.false_ne_true
  add_zero d := rfl
  add_comm d e := by
    apply ext_getD
    · intro name
      rw [getD_add, getD_add, add_comm]
    · intro name
      rw [contains_add, contains_add, or_comm]
  nsmul := nsmulRec

/-- an additive measure of the values, summed over the entries of a table, is additive -/
theorem sum_add (f : α →+ ℕ) (d e : Dict α) :
    ((d + e).entries.map fun entry => f entry.2).sum =
      (d.entries.map fun entry => f entry.2).sum + (e.entries.map fun entry => f entry.2).sum := by
  have hfold : ∀ (entries : List (String × α)) (d : Dict α),
      ((entries.foldl addEntry d).entries.map fun entry => f entry.2).sum =
        (d.entries.map fun entry => f entry.2).sum + (entries.map fun entry => f entry.2).sum := by
    intro entries
    induction entries with
    | nil => simp
    | cons entry rest ih =>
      intro d
      -- the value that stood there is exchanged for its sum with the new one
      have hsum := @Entries.sum_insert α f entry.1 (d.getD entry.1 0 + entry.2) d.entries d.sorted
      have hold : (Entries.find? entry.1 d.entries).elim 0 f = f (d.getD entry.1 0) := by
        rw [getD, find?]
        cases Entries.find? entry.1 d.entries with
        | none => exact f.map_zero.symm
        | some value => rfl
      rw [hold, map_add] at hsum
      rw [List.foldl_cons, ih, List.map_cons, List.sum_cons]
      simp only [addEntry, insert]
      omega
  exact hfold e.entries d

end Dict

namespace NameSet

/-- of the ways to add values that say nothing, the one by which sets are added -/
instance : AddCommMonoid Unit := PUnit.addCommGroup.toAddCommMonoid

theorem union_eq_add (s t : NameSet) : union s t = s + t := by
  apply ext_contains
  intro name
  rw [contains_union, Dict.contains_add]

end NameSet

end PixelAudit
