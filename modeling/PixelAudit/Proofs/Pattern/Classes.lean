/-
Classes of characters before different tails.

The rest of a class is told by what it begins with: `classStep`. The name of a class in brackets and colons has no
closing bracket in it, so it does not reach into a tail, and neither does any other beginning.

Main results: `classBody_succ` (one step of a class), `asciiClass?_append` (named classes end in front of a tail),
`alike_bracketClass` (a class is read the same before different tails).
-/
import PixelAudit.Proofs.Pattern.Escapes
import Mathlib.Data.List.TakeWhile

namespace PixelAudit.Pattern

open Text (CodeSet)
open AlikeUpTo (get_bind next_bind bumpToNext_bind of_fuel of_state)

variable {old new : List Char} {bound : Nat}

/-! ## Items -/

/-- the character after blanks and one mark of a comment -/
def beyond (verbose : Bool) (cs : List Char) : Option Char :=
  if !verbose then cs.head?
  else match cs.dropWhile Text.isBlank with
    | '#' :: rest => (rest.dropWhile Text.isBlank).head?
    | rest => rest.head?

theorem peekBeyond_bind {α : Type} (f : Option Char → Parser α) (s : State) :
    (peekBeyond >>= f) s = f (beyond s.options.verbose s.rest.tail) s := by
  have hstart : (peekBeyond >>= f) s =
      ((if !s.options.verbose then pure s.rest.tail.head?
        else match s.rest.tail.dropWhile Text.isBlank with
          | '#' :: rest => pure (rest.dropWhile Text.isBlank).head?
          | rest => pure rest.head? : Parser (Option Char)) >>= f) s := rfl
  rw [hstart, beyond]
  split_ifs
  · rfl
  · split <;> rfl

theorem beyond_append_iff {tail : List Char} (htail : IsTail tail) (verbose : Bool)
    (cs : List Char) {c : Char} (hc : c ≠ ')') : beyond verbose (cs ++ tail) = some c ↔ beyond verbose cs = some c := by
  unfold beyond
  split_ifs
  · exact head?_append_iff htail hc
  · rw [dropWhile_isBlank_append htail]
    cases hrest : cs.dropWhile Text.isBlank with
    | nil =>
      rcases htail with rfl | ⟨rest, rfl⟩
      · rfl
      · simp [hc.symm]
    | cons d rest =>
      by_cases hd : d = '#'
      · subst hd
        simp only [List.cons_append, dropWhile_isBlank_append htail]
        exact head?_append_iff htail hc
      · simp [hd]

section classes

variable (h : Tails old new)

include h

theorem classAtom_up_to : AlikeUpTo (StuckLook old) old new [] 1 0 bound classAtom classAtom := by
  unfold classAtom
  refine next_bind (m := 1) (fun c => ?_) (by omega)
  refine .ite (fun _ => (escape_up_to h c).mono (List.prefix_refl _) (by omega) le_rfl) fun _ => ?_
  exact .bind (m := 0) (alike_bump c) (fun _ => .pure _) (by omega) (by omega)

/-- whether a hyphen begins a range does not depend on the tail -/
theorem beyond_bind {α : Type} {c : Char} {used left : Nat} {x x' y y' : Parser α}
    (hx : Alike old new [c] used left bound x y) (hx' : Alike old new [c] used left bound x' y') :
    Alike old new [c] used left bound
      (peekBeyond >>= fun b => if c ≠ '-' ∨ b = some ']' ∨ b = some '-' then x else x')
      (peekBeyond >>= fun b => if c ≠ '-' ∨ b = some ']' ∨ b = some '-' then y else y') where
  moves := by
    intro s a t hs hread
    rw [peekBeyond_bind] at hread
    split_ifs at hread
    · exact hx.moves hs hread
    · exact hx'.moves hs hread
  same := by
    intro s a t hs hbound hquiet hl hread
    have hrest : ∀ tail, (s.onto tail).rest.tail = s.rest.tail ++ tail := by
      intro tail
      obtain ⟨rest, hrest⟩ := hs
      rw [State.onto, ← hrest]
      rfl
    have hsame : ∀ {tail : List Char}, IsTail tail →
        ((c ≠ '-' ∨ beyond s.options.verbose (s.rest.tail ++ tail) = some ']' ∨
            beyond s.options.verbose (s.rest.tail ++ tail) = some '-') ↔
          (c ≠ '-' ∨ beyond s.options.verbose s.rest.tail = some ']' ∨
            beyond s.options.verbose s.rest.tail = some '-')) := by
      intro tail htail
      rw [beyond_append_iff htail _ _ (by decide), beyond_append_iff htail _ _ (by decide)]
    have hoptions : ∀ tail, (s.onto tail).options = s.options := fun _ => rfl
    rw [peekBeyond_bind, hoptions, hrest, if_congr (hsame h.old) rfl rfl] at hread
    rw [peekBeyond_bind, hoptions, hrest, if_congr (hsame h.new) rfl rfl]
    split_ifs at hread ⊢
    · exact hx.same hs hbound hquiet hl hread
    · exact hx'.same hs hbound hquiet hl hread

/-- the set of an item: a character, or what an escape stands for, but no test of the place -/
def singleItem : Atom → Parser CodeSet
  | .char c => classChar c
  | .set set => return set
  | .look _ => refuse

omit h in
theorem alike_singleItem (first : Atom) : Alike old new [] 0 0 bound (singleItem first) (singleItem first) := by
  cases first with
  | char c => exact alike_classChar c
  | set set => exact .pure _
  | look look => exact .refuse

/-- the set between two characters -/
def rangeItem (first second : Atom) : Parser CodeSet :=
  match first, second with
  | .char a, .char b => do
    let _ ← classChar a
    let _ ← classChar b
    if a ≤ b then return [(a.toNat, b.toNat)] else refuse
  | _, _ => refuse

omit h in
theorem alike_rangeItem (first second : Atom) :
    Alike old new [] 0 0 bound (rangeItem first second) (rangeItem first second) := by
  cases first with
  | char a =>
    cases second with
    | char b =>
      refine .bind (m := 0) (alike_classChar a) (fun _ => ?_) (by omega) (by omega)
      refine .bind (m := 0) (alike_classChar b) (fun _ => ?_) (by omega) (by omega)
      exact .ite (fun _ => .pure _) fun _ => .refuse
    | set set => exact .refuse
    | look look => exact .refuse
  | set set => exact .refuse
  | look look => exact .refuse

omit h in
theorem classItem_eq : classItem = (do
    let first ← classAtom
    bumpSpace
    let c ← next
    let b ← peekBeyond
    if c ≠ '-' ∨ b = some ']' ∨ b = some '-' then singleItem first
    else do
      let _ ← bumpToNext
      let second ← classAtom
      rangeItem first second) := rfl

theorem alike_classItem : Alike old new [] 1 1 bound classItem classItem := by
  rw [classItem_eq]
  refine .bind_up_to (m := 0) (classAtom_up_to h) (fun first => ?_) ?_ (by omega) (by omega)
  · refine .bind (m := 0) (alike_bumpSpace h) (fun _ => ?_) (by omega) (by omega)
    refine next_bind (m := 0) (fun c => beyond_bind h ?_ ?_) (by omega)
    · exact (alike_singleItem first).mono List.nil_prefix le_rfl (by omega)
    · refine bumpToNext_bind h (m := 0) (fun d => ?_) (by omega) (by omega)
      refine .bind_up_to (m := 0) (classAtom_up_to h).anywhere
        (fun second => (alike_rangeItem first second).mono List.nil_prefix le_rfl (by omega)) ?_ (by omega) (by omega)
      rintro second k set t ⟨⟨look, rfl⟩, -⟩ hread
      cases first <;> cases hread
  · -- a test of the place is refused in a class
    rintro first k set t ⟨⟨look, rfl⟩, -⟩ hread
    obtain ⟨-, mid, -, hread⟩ := bind_eq_some.1 hread
    obtain ⟨c, mid, -, hread⟩ := bind_eq_some.1 hread
    rw [peekBeyond_bind] at hread
    split_ifs at hread
    · cases hread
    · obtain ⟨-, mid, -, hread⟩ := bind_eq_some.1 hread
      obtain ⟨second, mid, -, hread⟩ := bind_eq_some.1 hread
      cases second <;> cases hread

end classes

/-! ## Openings -/

theorem alike_leadingHyphens (h : Tails old new) (d : ClassDraft) (n m : Nat) :
    Alike old new [] 0 1 m (leadingHyphens d n) (leadingHyphens d m) := by
  induction n generalizing d m with
  | zero => exact .refuse
  | succ n ih =>
    refine of_fuel (fun m => ?_) m
    rw [leadingHyphens, leadingHyphens]
    refine next_bind (m := 0) (fun c => ?_) (by omega)
    refine .ite (fun _ => ?_) fun _ => .pure _
    refine bumpToNext_bind h (m := 0) (fun _ => ?_) (by omega) (by omega)
    exact (ih _ m).anywhere

/-- the start of a class after its bracket and its sign -/
def classStart (negated : Bool) : Parser (Bool × ClassDraft) := do
  let draft ← leadingHyphens .start ((← get).rest.length + 1)
  if draft.count = 0 ∧ (← next) = ']' then
    let _ ← bumpToNext
    return (negated, draft.push (CodeSet.single ']') 0)
  else return (negated, draft)

theorem alike_classStart (h : Tails old new) (negated : Bool) :
    Alike old new [] 0 1 bound (classStart negated) (classStart negated) := by
  unfold classStart
  refine get_bind fun s s' _ => ?_
  refine .bind (m := 0) (alike_leadingHyphens h _ _ _) (fun draft => ?_) (by omega) (by omega)
  refine next_bind (m := 0) (fun c => ?_) (by omega)
  refine .ite (fun _ => ?_) fun _ => .pure _
  exact bumpToNext_bind h (m := 0) (fun _ => .pure _) (by omega) (by omega)

theorem classOpen_eq : classOpen = (do
    let c ← bumpToNext
    if c = '^' then do
      let _ ← bumpToNext
      classStart true
    else classStart false) := rfl

theorem alike_classOpen (h : Tails old new) (c : Char) : Alike old new [c] 1 1 bound classOpen classOpen := by
  rw [classOpen_eq]
  refine bumpToNext_bind h (m := 0) (fun d => ?_) (by omega) (by omega)
  refine .ite (fun _ => ?_) fun _ => (alike_classStart h false).anywhere
  refine bumpToNext_bind h (m := 0) (fun _ => ?_) (by omega) (by omega)
  exact (alike_classStart h true).anywhere

theorem takeWhile_until {mark : Char} {name : List Char} (hname : mark ∉ name) (rest : List Char) :
    (name ++ mark :: rest).takeWhile (· != mark) = name := by
  have hall : ∀ c ∈ name, (c != mark) = true := fun c hc => bne_iff_ne.2 fun heq => hname (heq ▸ hc)
  rw [List.takeWhile_append_of_pos hall, List.takeWhile_cons_of_neg (by simp), List.append_nil]

theorem dropWhile_until {mark : Char} {name : List Char} (hname : mark ∉ name) (rest : List Char) :
    (name ++ mark :: rest).dropWhile (· != mark) = mark :: rest := by
  have hall : ∀ c ∈ name, (c != mark) = true := fun c hc => bne_iff_ne.2 fun heq => hname (heq ▸ hc)
  rw [List.dropWhile_append_of_pos hall, List.dropWhile_cons_of_neg (by simp)]

/-- the class of which the name comes next, up to a colon and a closing bracket, and what is left then -/
def namedClass? (negated : Bool) (cs : List Char) : Option (Bool × CodeSet × List Char) :=
  match cs.dropWhile (· != ':') with
  | ':' :: ']' :: rest =>
    (asciiClasses.find? fun entry => entry.1.toList == cs.takeWhile (· != ':')).map fun entry =>
      (negated, entry.2, rest)
  | _ => none

theorem asciiClass?_negated (cs : List Char) : asciiClass? ('[' :: ':' :: '^' :: cs) = namedClass? true cs := rfl

theorem asciiClass?_plain {cs : List Char} (hcs : cs.head? ≠ some '^') :
    asciiClass? ('[' :: ':' :: cs) = namedClass? false cs := by
  unfold asciiClass?
  split
  case h_1 rest heq =>
    obtain rfl : cs = rest := (List.cons.inj (List.cons.inj heq).2).2
    split
    case h_1 negated name hsign =>
      split at hsign
      · exact absurd rfl hcs
      · obtain ⟨rfl, rfl⟩ := Prod.mk.inj hsign
        rfl
  case h_2 heq => exact absurd rfl (heq _)

theorem asciiClass?_other {cs : List Char} (hcs : ∀ rest, cs ≠ '[' :: ':' :: rest) : asciiClass? cs = none := by
  unfold asciiClass?
  split
  · exact absurd rfl (hcs _)
  · rfl

/-- no class has a closing bracket in its name -/
theorem find?_asciiClasses {name : List Char} (hname : ')' ∈ name) :
    (asciiClasses.find? fun entry => entry.1.toList == name) = none := by
  have hfree : ∀ entry ∈ asciiClasses, ')' ∉ entry.1.toList := by decide
  rw [List.find?_eq_none]
  intro entry hentry heq
  exact hfree entry hentry (eq_of_beq heq ▸ hname)

theorem namedClass?_append {tail : List Char} (htail : IsTail tail) (negated : Bool)
    (cs : List Char) :
    namedClass? negated (cs ++ tail) = (namedClass? negated cs).map fun r => (r.1, r.2.1, r.2.2 ++ tail) := by
  by_cases hcolon : ':' ∈ cs
  · -- the name ends in front of the tail
    obtain ⟨name, rest, rfl, hname⟩ := List.eq_append_cons_of_mem hcolon
    rw [List.append_assoc, List.cons_append]
    unfold namedClass?
    simp only [takeWhile_until hname, dropWhile_until hname]
    cases rest with
    | nil =>
      rcases htail with rfl | ⟨more, rfl⟩
      · rfl
      · rfl
    | cons c rest =>
      by_cases hc : c = ']'
      · subst hc
        simp only [List.cons_append, Option.map_map]
        rfl
      · simp [hc]
  · -- what is read as a name runs into the tail
    have hall : ∀ c ∈ cs, (c != ':') = true := fun c hc => bne_iff_ne.2 fun heq => hcolon (heq ▸ hc)
    have hnone : namedClass? negated cs = none := by
      rw [namedClass?, List.dropWhile_eq_nil_iff.2 hall]
    rw [hnone, Option.map_none]
    rcases htail with rfl | ⟨rest, rfl⟩
    · rw [List.append_nil, hnone]
    · have hname : ')' ∈ (cs ++ ')' :: rest).takeWhile (· != ':') := by
        rw [List.takeWhile_append_of_pos hall, List.takeWhile_cons_of_pos (by decide)]
        exact List.mem_append_right _ List.mem_cons_self
      unfold namedClass?
      split
      · rw [find?_asciiClasses hname, Option.map_none]
      · rfl

theorem asciiClass?_append {tail : List Char} (htail : IsTail tail) (c : Char)
    (cs : List Char) :
    asciiClass? (c :: cs ++ tail) = (asciiClass? (c :: cs)).map fun r => (r.1, r.2.1, r.2.2 ++ tail) := by
  by_cases hopen : ∃ rest, c :: cs = '[' :: ':' :: rest
  · obtain ⟨rest, hrest⟩ := hopen
    rw [hrest, List.cons_append, List.cons_append]
    by_cases hsign : rest.head? = some '^'
    · obtain ⟨name, rfl⟩ := List.head?_eq_some_iff.1 hsign
      rw [List.cons_append, asciiClass?_negated, asciiClass?_negated, namedClass?_append htail]
    · have hsign' : (rest ++ tail).head? ≠ some '^' := fun heq => hsign ((head?_append_iff htail (by decide)).1 heq)
      rw [asciiClass?_plain hsign, asciiClass?_plain hsign', namedClass?_append htail]
  · rw [asciiClass?_other (fun rest heq => hopen ⟨rest, heq⟩)]
    refine asciiClass?_other fun rest heq => ?_
    -- a colon does not begin a tail
    cases cs with
    | nil =>
      obtain ⟨-, hcolon⟩ := List.cons.inj heq
      rcases htail with rfl | ⟨more, rfl⟩
      · cases hcolon
      · cases hcolon
    | cons d cs =>
      obtain ⟨rfl, hcolon⟩ := List.cons.inj heq
      obtain ⟨rfl, -⟩ := List.cons.inj hcolon
      exact hopen ⟨cs, rfl⟩

theorem namedClass?_suffix {negated : Bool} {cs : List Char} {r : Bool × CodeSet × List Char}
    (hread : namedClass? negated cs = some r) : r.2.2 <:+ cs := by
  unfold namedClass? at hread
  split at hread
  case h_1 rest hdrop =>
    obtain ⟨entry, -, rfl⟩ := Option.map_eq_some_iff.1 hread
    have hsuffix := List.dropWhile_suffix (fun c => c != ':') (l := cs)
    rw [hdrop] at hsuffix
    exact ((List.suffix_cons _ _).trans (List.suffix_cons _ _)).trans hsuffix
  case h_2 => cases hread

/-- a named class takes up something -/
theorem exists_of_asciiClass? {cs left : List Char} {negated : Bool} {set : CodeSet}
    (hread : asciiClass? cs = some (negated, set, left)) : ∃ front, front ≠ [] ∧ front ++ left = cs := by
  by_cases hopen : ∃ rest, cs = '[' :: ':' :: rest
  · obtain ⟨rest, rfl⟩ := hopen
    have hsuffix : left <:+ rest := by
      by_cases hsign : rest.head? = some '^'
      · obtain ⟨name, rfl⟩ := List.head?_eq_some_iff.1 hsign
        exact (namedClass?_suffix (r := (negated, set, left)) hread).trans (List.suffix_cons _ _)
      · rw [asciiClass?_plain hsign] at hread
        exact namedClass?_suffix (r := (negated, set, left)) hread
    obtain ⟨front, rfl⟩ := hsuffix
    exact ⟨'[' :: ':' :: front, List.cons_ne_nil _ _, rfl⟩
  · rw [asciiClass?_other (fun rest heq => hopen ⟨rest, heq⟩)] at hread
    cases hread

/-- what the rest of a class begins with -/
inductive ClassStep where
  /-- nothing, which is refused -/
  | missing
  /-- a named class, by its set and the number of characters it takes up -/
  | named (negated : Bool) (set : CodeSet) (length : Nat)
  /-- a class inside the class -/
  | inner
  | close
  | operate (op : SetOp)
  | item

def classStep : List Char → ClassStep
  | [] => .missing
  | c :: cs =>
    if c = '[' then
      match asciiClass? (c :: cs) with
      | some (negated, set, left) => .named negated set ((c :: cs).length - left.length)
      | none => .inner
    else if c = ']' then .close
    else if c = '&' ∧ cs.head? = some '&' then .operate .inter
    else if c = '-' ∧ cs.head? = some '-' then .operate .diff
    else if c = '~' ∧ cs.head? = some '~' then .operate .symmDiff
    else .item

/-- the rest of a class from such a beginning on -/
def ClassStep.run (negated : Bool) (d : ClassDraft) (fuel : Nat) (o : Options) : ClassStep → Parser (CodeSet × Nat)
  | missing => refuse
  | named negatedClass set length => do
    modify fun s => { s with rest := s.rest.drop length }
    let set ← foldAndNegate negatedClass set
    classBody negated (d.push set 0) fuel
  | inner => do
    let (negatedInner, draft) ← classOpen
    let (set, depth) ← classBody negatedInner draft fuel
    classBody negated (d.push set (depth + 1)) fuel
  | close => do
    bump
    let (set, depth) := d.close o
    return (← foldAndNegate negated set, depth)
  | operate op => do
    modify fun s => { s with rest := s.rest.drop 2 }
    classBody negated (d.operate o op) fuel
  | item => do
    let set ← classItem
    classBody negated (d.push set 0) fuel

def classRest (negated : Bool) (d : ClassDraft) (fuel : Nat) : Parser (CodeSet × Nat) := fun s =>
  (classStep s.rest).run negated d fuel s.options s

theorem modify_drop_bind {α : Type} {s : State} {cs : List Char} {n : Nat} (hdrop : s.rest.drop n = cs)
    (f : Unit → Parser α) : ((modify fun s => { s with rest := cs }) >>= f) s =
      ((modify fun s => { s with rest := s.rest.drop n }) >>= f) s := by
  subst hdrop
  rfl

theorem classBody_succ (negated : Bool) (d : ClassDraft) (fuel : Nat) :
    classBody negated d (fuel + 1) = bumpSpace >>= fun _ => classRest negated d fuel := by
  rw [classBody]
  refine congrArg (bumpSpace >>= ·) (funext fun _ => funext fun s => ?_)
  obtain ⟨rest, o, groups, captures⟩ := s
  rw [classRest]
  have hget : ∀ (f : State → Parser (CodeSet × Nat)) s, (get >>= f) s = f s s := fun _ _ => rfl
  rw [hget]
  dsimp only
  split
  case h_1 => rfl
  case h_2 more =>
    cases hnamed : asciiClass? ('[' :: more) with
    | none =>
      simp only [classStep, hnamed, if_true]
      rfl
    | some r =>
      obtain ⟨front, -, hfront⟩ := exists_of_asciiClass? hnamed
      simp only [classStep, hnamed, if_true]
      refine modify_drop_bind ?_ _
      simp [← hfront]
  case h_3 => rfl
  case h_4 => rfl
  case h_5 => rfl
  case h_6 => rfl
  case h_7 hnil hopen hclose hinter hdiff hsymm =>
    have hitem : classStep rest = .item := by
      cases rest with
      | nil => exact absurd rfl hnil
      | cons c cs =>
        have hpair : ∀ {mark : Char}, (∀ more, c :: cs = mark :: mark :: more → False) →
            ¬ (c = mark ∧ cs.head? = some mark) := by
          rintro mark hmark ⟨rfl, hhead⟩
          obtain ⟨more, rfl⟩ := List.head?_eq_some_iff.1 hhead
          exact hmark more rfl
        rw [classStep, if_neg fun hc => hopen cs (congrArg (· :: cs) hc),
          if_neg fun hc => hclose cs (congrArg (· :: cs) hc), if_neg (hpair hinter), if_neg (hpair hdiff),
          if_neg (hpair hsymm)]
    rw [hitem]
    rfl

theorem classStep_append {tail : List Char} (htail : IsTail tail) (c : Char)
    (cs : List Char) :
    classStep (c :: cs ++ tail) = classStep (c :: cs) := by
  have hnamed := asciiClass?_append htail c cs
  rw [List.cons_append] at hnamed ⊢
  simp only [classStep, hnamed, head?_append_iff htail (show '&' ≠ ')' by decide),
    head?_append_iff htail (show '-' ≠ ')' by decide), head?_append_iff htail (show '~' ≠ ')' by decide)]
  cases asciiClass? (c :: cs) with
  | none => rfl
  | some r =>
    have hlength : (c :: (cs ++ tail)).length - (r.2.2 ++ tail).length = (c :: cs).length - r.2.2.length := by
      rw [← List.cons_append, List.length_append, List.length_append, Nat.add_sub_add_right]
    simp only [Option.map_some, hlength]

/-- from each beginning on a class is alike, if the class after it is -/
theorem alike_run (h : Tails old new) {n m : Nat} (negated : Bool) (d : ClassDraft) (o : Options) (cs : List Char)
    (ih : ∀ negated d, Alike old new [] 1 0 m (classBody negated d n) (classBody negated d m)) :
    ∃ lead, lead <+: cs ∧
      Alike old new lead 1 0 (m + 1) ((classStep cs).run negated d n o) ((classStep cs).run negated d m o) := by
  cases cs with
  | nil => exact ⟨[], List.nil_prefix, .refuse⟩
  | cons c cs =>
    have hpair : ∀ {mark : Char} {op : SetOp}, c = mark ∧ cs.head? = some mark → ∃ lead, lead <+: c :: cs ∧
        Alike old new lead 1 0 (m + 1) (ClassStep.run negated d n o (.operate op))
          (ClassStep.run negated d m o (.operate op)) := by
      rintro mark op ⟨rfl, hhead⟩
      obtain ⟨more, rfl⟩ := List.head?_eq_some_iff.1 hhead
      exact ⟨[c, c], List.prefix_append [c, c] more,
        .bind (m := 1) (alike_drop le_rfl) (fun _ => (ih _ _).shorter (by omega)) (by omega) (by omega)⟩
    rw [classStep]
    split_ifs with hopen hclose hinter hdiff hsymm
    · cases hnamed : asciiClass? (c :: cs) with
      | some r =>
        obtain ⟨front, hne, hfront⟩ := exists_of_asciiClass? hnamed
        have hlength : (c :: cs).length - r.2.2.length = front.length := by
          rw [← hfront, List.length_append, Nat.add_sub_cancel]
        have hpos : 1 ≤ front.length := List.length_pos_iff.2 hne
        refine ⟨front, ⟨_, hfront⟩, ?_⟩
        simp only [ClassStep.run, hlength]
        refine .bind (m := 1) (alike_drop le_rfl) (fun _ => ?_) (by omega) (by omega)
        exact .bind (m := 1) (alike_foldAndNegate _ _) (fun _ => (ih _ _).shorter (by omega)) (by omega) (by omega)
      | none =>
        refine ⟨[c], List.prefix_append [c] cs, ?_⟩
        refine .bind (m := 1) (alike_classOpen h c) (fun start => ?_) (by omega) (by omega)
        exact .bind (m := 1) (ih _ _) (fun r => (ih _ _).shorter (by omega)) (by omega) (by omega)
    · refine ⟨[c], List.prefix_append [c] cs, ?_⟩
      refine .bind (m := 0) (alike_bump c) (fun _ => ?_) (by omega) (by omega)
      exact .bind (m := 0) (alike_foldAndNegate _ _) (fun _ => .pure _) (by omega) (by omega)
    · exact hpair hinter
    · exact hpair hdiff
    · exact hpair hsymm
    · exact ⟨[], List.nil_prefix, .bind (m := 1) (alike_classItem h) (fun _ => ih _ _) (by omega) (by omega)⟩

theorem alike_classRest (h : Tails old new) {n m : Nat} (negated : Bool) (d : ClassDraft)
    (ih : ∀ negated d, Alike old new [] 1 0 m (classBody negated d n) (classBody negated d m)) :
    Alike old new [] 1 0 (m + 1) (classRest negated d n) (classRest negated d m) := by
  refine of_state (fun s _ => ?_) fun s _ hused => ?_
  · obtain ⟨lead, hlead, halike⟩ := alike_run h negated d s.options s.rest ih
    exact ⟨lead, _, _, hlead, halike, rfl⟩
  · -- something is left in front of the tail, and it says how the class goes on
    obtain ⟨c, cs, hrest⟩ := List.exists_cons_of_length_pos hused
    have hsame : ∀ {tail : List Char}, IsTail tail →
        classStep (s.onto tail).rest = classStep s.rest := by
      intro tail htail
      rw [State.onto, hrest]
      exact classStep_append htail c cs
    obtain ⟨lead, hlead, halike⟩ := alike_run h negated d s.options s.rest ih
    refine ⟨lead, _, _, hlead, halike, ?_, ?_⟩
    · rw [classRest, hsame h.old]
      rfl
    · rw [classRest, hsame h.new]
      rfl

theorem alike_classBody (h : Tails old new) (negated : Bool) (d : ClassDraft) (n m : Nat) :
    Alike old new [] 1 0 m (classBody negated d n) (classBody negated d m) := by
  induction n generalizing negated d m with
  | zero => exact .refuse
  | succ n ih =>
    refine of_fuel (fun m => ?_) m
    rw [classBody_succ, classBody_succ]
    exact .bind (m := 1) (alike_bumpSpace h) (fun _ => alike_classRest h negated d (ih · · m)) (by omega) (by omega)

theorem alike_bracketClass (h : Tails old new) (c : Char) :
    Alike old new [c] 2 0 bound bracketClass bracketClass := by
  unfold bracketClass
  refine .bind (m := 1) (alike_classOpen h c) (fun start => ?_) (by omega) (by omega)
  refine get_bind fun s s' _ => ?_
  refine .bind (m := 0) (alike_classBody h _ _ _ _) (fun r => ?_) (by omega) (by omega)
  exact .bind (m := 0) (alike_setForm _) (fun _ => .pure _) (by omega) (by omega)

end PixelAudit.Pattern
