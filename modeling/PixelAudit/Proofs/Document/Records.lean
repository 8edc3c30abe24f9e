/-
Records are read back from the objects that they are written as.

A record is written field by field, and a field without a value is left out. `written` lists the members of the object,
`filled` is the record that they make when they are read. What has to be known of each field is that it reads its own
value; that no two fields share a name is enough for the rest.

Main results: `Fills.reads` (an object whose members fill a record is read as that record), `reads_written` (an object
that was written field by field is read as the record that the fields make).
-/
import PixelAudit.Proofs.Document.Readback
import Mathlib.Tactic

namespace PixelAudit

open Json
open Json.Reader

namespace Form

variable {σ : Type}

/-- the members of an object lead from one draft of a record to another -/
inductive Fills (form : Form σ) : Draft σ → List (String × Json) → Draft σ → Prop where
  | nil (draft : Draft σ) : Fills form draft [] draft
  | cons {draft last : Draft σ} {name : String} {j : Json} {f : Field σ} {change : σ → σ}
      {ms : List (String × Json)} (hfield : form.field? draft name = .ok (some f)) (hread : f.decoder.Reads j change)
      (hrest : Fills form (draft.put f change) ms last) : Fills form draft ((name, j) :: ms) last

/-- the next member is read where it stands, by its field and after a blank, and then the others -/
theorem readMembers_cons {form : Form σ} {draft : Draft σ} {name : String} {f : Field σ}
    (hfield : form.field? draft name = .ok (some f)) (room : Nat) (first : Bool) (depth : Nat) (j : Json)
    (ms : List (String × Json)) (rest : List Char) (fuel : Nat) :
    form.readMembers room draft first (fuel + 1) (membersText first depth ((name, j) :: ms) ++ rest) =
      (do
        let change ← f.decoder.ofText room
        form.readMembers room (draft.put f change) false fuel)
        ([' '] ++ ((j.indented depth).toList ++ (membersText false depth ms ++ rest))) := by
  obtain ⟨cs, hkey, htext⟩ := membersText_cons first depth name j ms rest
  have hlift : ∀ cs, (lift (.ok (some f)) : Reader (Option (Field σ))) cs = .ok (some f) cs := fun _ => rfl
  rw [htext, readMembers, bind_ok (moreMembers_member first (isSpace_newLine depth) cs), if_pos rfl, ← hkey,
    bind_ok (memberKey_quote name _), hfield]
  exact (bind_ok (hlift _)).trans (bind_ok (colon_cons _))

theorem readMembers_membersText {form : Form σ} {draft last : Draft σ} {ms : List (String × Json)}
    (h : form.Fills draft ms last) {room : Nat} (hroom : nestingMembers ms ≤ room) (depth : Nat) {gap : List Char}
    (hgap : ∀ c ∈ gap, isSpace c = true) (rest : List Char) (hend : ms ≠ [] → Delimited (gap ++ '\x7d' :: rest))
    (first : Bool) {fuel : Nat} (hfuel : ms.length < fuel) :
    form.readMembers room draft first fuel (membersText first depth ms ++ (gap ++ '\x7d' :: rest)) =
      .ok last ('\x7d' :: rest) := by
  obtain ⟨fuel, rfl⟩ : ∃ n, fuel = n + 1 := ⟨fuel - 1, by omega⟩
  induction h generalizing first fuel with
  | nil draft =>
    unfold readMembers
    rw [membersText, List.nil_append, bind_ok (moreMembers_end hgap first rest)]
    rfl
  | @cons draft last name j f change ms hfield hj _ ih =>
    have hend' := hend (by simp)
    have hread := hj room depth [' '] (membersText false depth ms ++ (gap ++ '\x7d' :: rest))
      ((le_max_left _ _).trans hroom) (by simp; decide) (delimited_membersText depth ms hend')
    obtain ⟨fuel, rfl⟩ : ∃ n, fuel = n + 1 := ⟨fuel - 1, by simp at hfuel; omega⟩
    have htail := ih ((le_max_right _ _).trans hroom) (fun _ => hend') false fuel (by simp at hfuel; omega)
    rw [readMembers_cons hfield, bind_ok hread, htail]

/-- an object is read as a record if its members fill one -/
theorem Fills.reads {form : Form σ} {ms : List (String × Json)} {last : Draft σ} {record : σ}
    (h : form.Fills ⟨form.blank, []⟩ ms last) (hfinish : form.finish last = .ok record) :
    form.decoder.Reads (.object ms) record := by
  intro room depth blanks rest hroom hblanks hrest
  obtain ⟨room, rfl⟩ : ∃ n, room = n + 1 := ⟨room - 1, by simp [nesting] at hroom; omega⟩
  have hinner : nestingMembers ms ≤ room := by simpa [nesting] using hroom
  have hend : ms ≠ [] → Delimited (closingGap depth ms ++ '\x7d' :: rest) := fun hne => delimited_closingGap depth hne _
  rw [indented_object_toList, List.cons_append, List.append_assoc, List.append_assoc, List.singleton_append]
  have hfuel := length_lt_membersText (depth + 1) ms (closingGap depth ms ++ '\x7d' :: rest) true
  have hmembers := readMembers_membersText h hinner (depth + 1) (isSpace_closingGap depth ms) rest hend true hfuel
  have hbody : (do
      let draft ← form.readMembers room ⟨form.blank, []⟩ true ((← get).length + 1)
      lift (form.finish draft)) (membersText true (depth + 1) ms ++ (closingGap depth ms ++ '\x7d' :: rest)) =
        .ok record ('\x7d' :: rest) := by
    refine (bind_ok hmembers).trans ?_
    rw [hfinish]
    rfl
  refine atPlace_ok ((Decoder.withStart_blanks hblanks (by decide) _).trans ?_)
  rw [if_pos rfl]
  exact (bind_ok (bump_cons _ _)).trans (thenClose_ok hbody (closeObject_brace rest))

/-! ## Records as they are written -/

/-- what is written of a field, with the change of the record that it is read as -/
abbrev Value (σ : Type) := Option (Json × (σ → σ))

/-- a field that is written reads as the change; one that is left out is not needed -/
def Carries (f : Field σ) : Value σ → Prop
  | some (j, change) => f.decoder.Reads j change
  | none => f.required = false

/-- the member of a field, if it is written -/
def memberOf (f : Field σ) : Value σ → List (String × Json)
  | some v => [(f.name, v.1)]
  | none => []

/-- the members that are written -/
def written : List (Field σ) → List (Value σ) → List (String × Json)
  | f :: fs, v :: vs => memberOf f v ++ written fs vs
  | _, _ => []

/-- the record with the change of a field -/
def changed (v : Value σ) (r : σ) : σ := v.elim r fun v => v.2 r

/-- the record with all the changes, made in their order -/
def filled : List (Value σ) → σ → σ
  | v :: vs, r => filled vs (changed v r)
  | [], r => r

/-- the names of the fields that are written -/
def writtenNames : List (Field σ) → List (Value σ) → List String
  | f :: fs, some _ :: vs => f.name :: writtenNames fs vs
  | _ :: fs, none :: vs => writtenNames fs vs
  | _, _ => []

theorem answersTo_iff (f : Field σ) (name : String) : f.answersTo name = true ↔ name ∈ f.name :: f.aliases := by
  simp only [Field.answersTo, Bool.or_eq_true, beq_iff_eq, List.contains_iff_mem, List.mem_cons]
  exact or_congr eq_comm Iff.rfl

/-- no two fields share a name -/
theorem find?_answersTo {done rest : List (Field σ)} {f : Field σ}
    (h : ((done ++ f :: rest).flatMap fun f => f.name :: f.aliases).Nodup) :
    (done ++ f :: rest).find? (fun g => g.answersTo f.name) = some f := by
  rw [List.find?_append, List.find?_eq_none.mpr, Option.none_or, List.find?_cons_of_pos]
  · exact (answersTo_iff f f.name).2 List.mem_cons_self
  · intro g hg hgf
    rw [List.flatMap_append, List.nodup_append] at h
    have hdone : f.name ∈ done.flatMap fun f => f.name :: f.aliases :=
      List.mem_flatMap.2 ⟨g, hg, (answersTo_iff g f.name).1 hgf⟩
    exact h.2.2 _ hdone _ (by simp) rfl

/-- only fields of the list have been read into the draft -/
def Draft.Knows (draft : Draft σ) (done : List (Field σ)) : Prop := ∀ name ∈ draft.seen, ∃ f ∈ done, f.name = name

theorem Draft.Knows.append {draft : Draft σ} {done : List (Field σ)} (h : draft.Knows done) (more : List (Field σ)) :
    draft.Knows (done ++ more) := by
  intro name hname
  obtain ⟨g, hg, hgname⟩ := h name hname
  exact ⟨g, List.mem_append_left _ hg, hgname⟩

theorem Draft.Knows.put {draft : Draft σ} {done : List (Field σ)} (h : draft.Knows done) (f : Field σ)
    (change : σ → σ) : (draft.put f change).Knows (done ++ [f]) := by
  intro name hname
  rcases List.mem_append.1 hname with hname | hname
  · exact h.append [f] name hname
  · exact ⟨f, by simp, (List.mem_singleton.1 hname).symm⟩

/-- the name of the next field stands for it -/
theorem field?_next {form : Form σ} {done rest : List (Field σ)} {f : Field σ}
    (hfields : form.fields = done ++ f :: rest) (hnames : form.allNames.Nodup) {draft : Draft σ}
    (hseen : draft.Knows done) : form.field? draft f.name = .ok (some f) := by
  rw [allNames, hfields] at hnames
  have hfresh : f.name ∉ draft.seen := by
    intro hmem
    obtain ⟨g, hg, hname⟩ := hseen _ hmem
    rw [List.flatMap_append, List.nodup_append] at hnames
    exact hnames.2.2 f.name (List.mem_flatMap.2 ⟨g, hg, by simp [hname]⟩) f.name (by simp) rfl
  rw [field?, hfields, find?_answersTo hnames]
  simp [hfresh]

/-- the fields still to come fill the draft in which those before them have been read -/
theorem fills_written {form : Form σ} {done rest : List (Field σ)} (hfields : form.fields = done ++ rest)
    (hnames : form.allNames.Nodup) {vs : List (Value σ)} (h : List.Forall₂ Carries rest vs) {draft : Draft σ}
    (hseen : draft.Knows done) :
    form.Fills draft (written rest vs) ⟨filled vs draft.record, draft.seen ++ writtenNames rest vs⟩ := by
  induction h generalizing done draft with
  | nil => simpa [written, filled, writtenNames] using Fills.nil draft
  | @cons f v fs vs hv _ ih =>
    have hnext : form.fields = (done ++ [f]) ++ fs := by simp [hfields]
    cases v with
    | none => exact ih hnext (hseen.append [f])
    | some v =>
      obtain ⟨j, change⟩ := v
      have hrest := ih hnext (hseen.put f change)
      rw [show (draft.put f change).seen = draft.seen ++ [f.name] from rfl, List.append_assoc] at hrest
      exact Fills.cons (field?_next hfields hnames hseen) hv hrest

/-- a field that has to be given is written -/
theorem required_mem_writtenNames {fs : List (Field σ)} {vs : List (Value σ)} (h : List.Forall₂ Carries fs vs)
    {f : Field σ} (hf : f ∈ fs) (hrequired : f.required = true) : f.name ∈ writtenNames fs vs := by
  induction h with
  | nil => cases hf
  | @cons g v gs vs hg _ ih =>
    rcases List.mem_cons.1 hf with rfl | hf
    · cases v with
      | none => exact absurd (hg.symm.trans hrequired) (by decide)
      | some v => exact List.mem_cons_self
    · cases v with
      | none => exact ih hf
      | some v => exact List.mem_cons_of_mem _ (ih hf)

/-- an object that was written field by field is read as the record that the fields make -/
theorem reads_written {form : Form σ} (hnames : form.allNames.Nodup) {vs : List (Value σ)}
    (h : List.Forall₂ Carries form.fields vs) :
    form.decoder.Reads (.object (written form.fields vs)) (filled vs form.blank) := by
  have hfills : form.Fills ⟨form.blank, []⟩ _ _ := fills_written (List.nil_append _).symm hnames h (List.forall_mem_nil _)
  refine hfills.reads ?_
  have hnone : form.fields.find? (fun f =>
      f.required && !([] ++ writtenNames form.fields vs).contains f.name) = none := by
    rw [List.find?_eq_none]
    intro f hf
    cases hrequired : f.required with
    | false => simp
    | true => simp [required_mem_writtenNames h hf hrequired]
  rw [finish, hnone]

end Form

end PixelAudit
