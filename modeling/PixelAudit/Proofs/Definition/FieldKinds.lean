/-
The kinds of fields that a stored record has: one that may be missing, a list that is left out if it is empty, a bound,
and a flag that is written only if it is set.

For each kind there is the member that is written (`memberOf_*`), the change that reading it makes (`changed_*`), and
that the field reads what is written (`carries_*`). A record is read back field by field with these.

Main results: `reads_object` (an object is read as the record that its fields make).
-/
import PixelAudit.Definition.Spec
import PixelAudit.Proofs.Document.Records
import Mathlib.Tactic

namespace PixelAudit

open Decimal (Binary64)
open Decoder (ReadsBack)

namespace Form

variable {σ α : Type}

/-- the value of a field that may be missing -/
def optionValue (write : α → Json) (keep : α → α) (put : Option α → σ → σ) (o : Option α) : Value σ :=
  o.map fun a => (write a, put (some (keep a)))

/-- the value of a list, which is left out if it is empty -/
def listValue (write : α → Json) (keep : α → α) (put : List α → σ → σ) : List α → Value σ
  | [] => none
  | a :: as => some (.array ((a :: as).map write), put ((a :: as).map keep))

/-- the value of a bound, which is not kept unless it is finite -/
def boundValue (put : Option Binary64 → σ → σ) (o : Option Binary64) : Value σ :=
  o.map fun x => (.real x, put ((some x).filter Binary64.isFinite))

/-- the value of a field that is written only if it holds -/
def flagValue (put : Bool → σ → σ) (b : Bool) : Value σ := if b then some (.bool true, put true) else none

section members

variable (f : Field σ)

theorem memberOf_some (v : Json × (σ → σ)) : memberOf f (some v) = [(f.name, v.1)] := rfl

theorem memberOf_optionValue (write : α → Json) (keep : α → α) (put : Option α → σ → σ) (o : Option α) :
    memberOf f (optionValue write keep put o) = optionalMember f.name write o := by
  cases o <;> rfl

theorem memberOf_listValue (write : α → Json) (keep : α → α) (put : List α → σ → σ) (as : List α) :
    memberOf f (listValue write keep put as) = listMember f.name write as := by
  cases as <;> rfl

theorem memberOf_boundValue (put : Option Binary64 → σ → σ) (o : Option Binary64) :
    memberOf f (boundValue put o) = optionalMember f.name .real o := by
  cases o <;> rfl

theorem memberOf_flagValue (put : Bool → σ → σ) (b : Bool) :
    memberOf f (flagValue put b) = if b then [(f.name, .bool true)] else [] := by
  cases b <;> rfl

end members

section changes

variable {r : σ}

theorem changed_some (v : Json × (σ → σ)) (r : σ) : changed (some v) r = v.2 r := rfl

theorem changed_optionValue {write : α → Json} {keep : α → α} {put : Option α → σ → σ} {o : Option α}
    (h : put none r = r) : changed (optionValue write keep put o) r = put (o.map keep) r := by
  cases o with
  | none => exact h.symm
  | some a => rfl

theorem changed_listValue {write : α → Json} {keep : α → α} {put : List α → σ → σ} {as : List α}
    (h : put [] r = r) : changed (listValue write keep put as) r = put (as.map keep) r := by
  cases as with
  | nil => exact h.symm
  | cons a as => rfl

theorem changed_boundValue {put : Option Binary64 → σ → σ} {o : Option Binary64} (h : put none r = r) :
    changed (boundValue put o) r = put (o.filter Binary64.isFinite) r := by
  cases o with
  | none => exact h.symm
  | some x => rfl

theorem changed_flagValue {put : Bool → σ → σ} {b : Bool} (h : put false r = r) :
    changed (flagValue put b) r = put b r := by
  cases b with
  | false => exact h.symm
  | true => rfl

end changes

theorem Carries.orNamed {f : Field σ} {v : Value σ} (h : Carries f v) (name : String) : Carries (f.orNamed name) v := by
  cases v <;> exact h

section carries

variable {d : Decoder α} {name : String}

theorem carries_optionValue {write : α → Json} {keep : α → α} {put : Option α → σ → σ} {o : Option α}
    (h : ∀ a ∈ o, d.Reads (write a) (keep a)) (hnull : ∀ a ∈ o, (write a).isNullText = false) :
    Carries (Field.of name (.optional d) put) (optionValue write keep put o) := by
  cases o with
  | none => rfl
  | some a => exact ((h a rfl).optional (hnull a rfl)).map put

theorem reads_map_list {write : α → Json} {keep : α → α} {as : List α} (h : ∀ a ∈ as, d.Reads (write a) (keep a)) :
    d.list.Reads (.array (as.map write)) (as.map keep) := by
  refine Decoder.Reads.list ?_
  rw [List.forall₂_map_left_iff, List.forall₂_map_right_iff, List.forall₂_same]
  exact h

theorem carries_listValue {write : α → Json} {keep : α → α} {put : List α → σ → σ} {as : List α}
    (h : ∀ a ∈ as, d.Reads (write a) (keep a)) :
    Carries (Field.of name (.list d) put) (listValue write keep put as) := by
  cases as with
  | nil => rfl
  | cons a as => exact (reads_map_list h).map put

theorem carries_boundValue {put : Option Binary64 → σ → σ} {o : Option Binary64}
    (h : ∀ x ∈ o, x.isFinite = true → ReadsBack x) :
    Carries (Field.of name (.optional .binary64) put) (boundValue put o) := by
  cases o with
  | none => rfl
  | some x =>
    have hread : (Decoder.optional .binary64).Reads (.real x) ((some x).filter Binary64.isFinite) := by
      cases hfinite : x.isFinite with
      | true =>
        rw [Option.filter_some_pos hfinite]
        exact (Decoder.Reads.binary64 hfinite (h x rfl hfinite)).optional (by simp [Json.isNullText, hfinite])
      | false =>
        rw [Option.filter_some_neg (by simp [hfinite])]
        exact Decoder.Reads.optional_null _ (by simp [Json.isNullText, hfinite])
    exact hread.map put

theorem carries_flagValue {put : Bool → σ → σ} (b : Bool) :
    Carries (Field.of name .bool put) (flagValue put b) := by
  cases b with
  | false => rfl
  | true => exact (Decoder.Reads.bool true).map put

end carries

/-- an object with the members that are written for a record is read as the record with all changes -/
theorem reads_object {form : Form σ} (hnames : form.allNames.Nodup) {vs : List (Value σ)}
    (h : List.Forall₂ Carries form.fields vs) {ms : List (String × Json)} {r : σ}
    (hms : written form.fields vs = ms) (hr : filled vs form.blank = r) :
    form.decoder.Reads (.object ms) r := by
  rw [← hms, ← hr]
  exact reads_written hnames h

end Form

end PixelAudit
