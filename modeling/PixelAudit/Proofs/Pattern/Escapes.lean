/-
Escapes before different tails.

All escapes are read the same, but for one: behind a boundary of words a brace may begin a word that says which kind
of boundary it is. To see whether it does, the parser looks beyond the brace, where the tail may stand, and goes back
to the brace if no word begins there: `Stuck`. Such a brace is no part of anything, so it does no harm in the end.

Main results: `escape_up_to` (an escape is read the same before different tails, or is stuck at a brace).
-/
import PixelAudit.Proofs.Pattern.Tails

namespace PixelAudit.Pattern

open Text (CodeSet)
open AlikeUpTo (options_bind get_bind next_bind bumpToNext_bind peek_bind bind_headed of_fuel)

variable {old new : List Char} {bound : Nat}

/-! ## Sets under the options -/

theorem alike_foldAndNegate (negated : Bool) (set : CodeSet) :
    Alike old new [] 0 0 bound (foldAndNegate negated set) (foldAndNegate negated set) := by
  unfold foldAndNegate
  refine options_bind fun o => ?_
  split
  · exact .pure _
  · dsimp only
    split_ifs
    all_goals first
      | exact .pure _
      | exact .refuse

theorem alike_setForm (set : CodeSet) : Alike old new [] 0 0 bound (setForm set) (setForm set) := by
  unfold setForm
  exact options_bind fun o => .pure _

theorem alike_charForm (c : Char) : Alike old new [] 0 0 bound (charForm c) (charForm c) := by
  unfold charForm
  refine options_bind fun o => ?_
  split
  · exact alike_setForm _
  · exact .pure _

theorem alike_shortEscape (c : Char) : Alike old new [] 0 0 bound (shortEscape c) (shortEscape c) := by
  unfold shortEscape
  refine options_bind fun o => ?_
  dsimp only
  split
  · exact .pure _
  · split
    · exact .pure _
    · exact .refuse

theorem alike_classChar (c : Char) : Alike old new [] 0 0 bound (classChar c) (classChar c) := by
  unfold classChar
  refine options_bind fun o => ?_
  split
  · exact .pure _
  · exact .refuse

theorem alike_dotForm : Alike old new [] 0 0 bound dotForm dotForm := by
  unfold dotForm
  refine options_bind fun o => ?_
  split
  · exact .refuse
  · split
    · exact alike_setForm _
    · split
      · exact alike_setForm _
      · exact alike_setForm _

/-! ## Escapes -/

theorem head?_of_bracedHex {n : Nat} {digits : List Char} {s t : State} {a : List Char}
    (hread : bracedHex digits n s = some (a, t)) : t.rest.head? = some '\x7d' := by
  induction n generalizing digits s with
  | zero => cases hread
  | succ n ih =>
    rw [bracedHex] at hread
    obtain ⟨c, mid, hnext, hread⟩ := bind_eq_some.1 hread
    split_ifs at hread with hclose hdigit
    · obtain ⟨-, rfl⟩ := Prod.mk.inj (Option.some.inj hread)
      rw [head?_of_bumpToNext hnext, hclose]
    · exact ih hread
    · cases hread

theorem head?_of_bracedName {n : Nat} {name : List Char} {s t : State} {a : List Char}
    (hread : bracedName name n s = some (a, t)) : t.rest.head? = some '\x7d' := by
  induction n generalizing name s with
  | zero => cases hread
  | succ n ih =>
    rw [bracedName] at hread
    obtain ⟨c, mid, hnext, hread⟩ := bind_eq_some.1 hread
    split_ifs at hread with hclose
    · obtain ⟨-, rfl⟩ := Prod.mk.inj (Option.some.inj hread)
      rw [head?_of_bumpToNext hnext, hclose]
    · exact ih hread

section escapes

variable (h : Tails old new)

include h

theorem alike_bracedHex (n m : Nat) (digits : List Char) (c : Char) :
    Alike old new [c] 1 1 m (bracedHex digits n) (bracedHex digits m) := by
  induction n generalizing digits c m with
  | zero => exact .refuse
  | succ n ih =>
    refine of_fuel (fun m => ?_) m
    rw [bracedHex, bracedHex]
    refine bumpToNext_bind h (m := 0) (fun d => ?_) (by omega) (by omega)
    split
    · exact .pure _
    · split
      · exact (ih m _ d).mono (List.prefix_refl _) (by omega) le_rfl
      · exact .refuse

theorem alike_fixedHex (n : Nat) (digits : List Char) :
    Alike old new [] n 0 bound (fixedHex digits n) (fixedHex digits n) := by
  induction n generalizing digits bound with
  | zero => exact .pure _
  | succ n ih =>
    rw [fixedHex]
    refine next_bind (fun c => ?_) (by omega)
    split
    · refine AlikeUpTo.bind (m := n) (alike_bump c) (fun _ => ?_) (by omega) (by omega)
      exact AlikeUpTo.bind (m := n) (alike_bumpSpace h) (fun _ => ih _) (by omega) (by omega)
    · exact .refuse

theorem alike_hexEscape : Alike old new [] 1 0 bound hexEscape hexEscape := by
  unfold hexEscape
  refine next_bind (m := 1) (fun kind => ?_) (by omega)
  refine bumpToNext_bind h (m := 1) (fun first => ?_) (by omega) (by omega)
  split
  · refine get_bind fun s s' _ => ?_
    refine bind_headed (m := 1) _ (alike_bracedHex h _ _ _ first) head?_of_bracedHex (fun digits => ?_) (by omega)
      (by omega) (by omega)
    refine AlikeUpTo.bind (m := 0) (alike_bump _) (fun _ => ?_) (by omega) (by omega)
    refine AlikeUpTo.bind (m := 0) (alike_bumpSpace h) (fun _ => ?_) (by omega) (by omega)
    split
    · exact .refuse
    · split
      · exact .pure _
      · exact .refuse
  · have hcount : 1 ≤ if kind = 'x' then 2 else if kind = 'u' then 4 else 8 := by split_ifs <;> decide
    refine AlikeUpTo.bind (m := 0) ((alike_fixedHex h _ _).mono List.nil_prefix hcount le_rfl) (fun digits => ?_)
      (by omega) (by omega)
    split
    · refine options_bind fun o => ?_
      split
      · exact .refuse
      · exact .pure _
    · exact .refuse

theorem alike_bracedName (n m : Nat) (name : List Char) (c : Char) :
    Alike old new [c] 1 1 m (bracedName name n) (bracedName name m) := by
  induction n generalizing name c m with
  | zero => exact .refuse
  | succ n ih =>
    refine of_fuel (fun m => ?_) m
    rw [bracedName, bracedName]
    refine bumpToNext_bind h (m := 0) (fun d => ?_) (by omega) (by omega)
    split
    · exact .pure _
    · exact (ih m _ d).mono (List.prefix_refl _) (by omega) le_rfl

omit h in
/-- what is read with Unicode only -/
def withUnicode (x : Parser CodeSet) : Parser CodeSet := do
  if !(← options).unicode then refuse
  x

omit h in
theorem alike_withUnicode {x : Parser CodeSet} (hx : Alike old new [] 0 0 bound x x) :
    Alike old new [] 0 0 bound (withUnicode x) (withUnicode x) :=
  options_bind fun _ => .ite (fun _ => .refuse_bind) fun _ => hx

theorem alike_propertyEscape : Alike old new [] 1 0 bound propertyEscape propertyEscape := by
  unfold propertyEscape
  refine next_bind (m := 1) (fun kind => ?_) (by omega)
  refine bumpToNext_bind h (m := 1) (fun first => ?_) (by omega) (by omega)
  dsimp only
  split
  · refine get_bind fun s s' _ => ?_
    refine bind_headed (m := 1) _ (alike_bracedName h _ _ _ first) head?_of_bracedName (fun name => ?_) (by omega)
      (by omega) (by omega)
    refine .bind (m := 0) (alike_bump _) (fun _ => ?_) (by omega) (by omega)
    rw [pure_bind]
    rcases propertySet? name with - | ⟨negated, set⟩
    · exact alike_withUnicode .refuse
    · exact alike_withUnicode (alike_foldAndNegate _ set)
  · split
    · exact .refuse_bind
    · refine .bind (m := 0) (alike_bump first) (fun _ => ?_) (by omega) (by omega)
      refine .bind (m := 0) (alike_bumpSpace h) (fun _ => ?_) (by omega) (by omega)
      rw [pure_bind]
      rcases (named? [first]).map (false, ·) with - | ⟨negated, set⟩
      · exact alike_withUnicode .refuse
      · exact alike_withUnicode (alike_foldAndNegate _ set)

theorem alike_specialWord (n m : Nat) (name : List Char) :
    Alike old new [] 1 0 m (specialWord name n) (specialWord name m) := by
  induction n generalizing name m with
  | zero => exact .refuse
  | succ n ih =>
    refine of_fuel (fun m => ?_) m
    rw [specialWord, specialWord]
    refine next_bind (m := 1) (fun c => ?_) (by omega)
    split
    · refine AlikeUpTo.bind (m := 1) (alike_bump c) (fun _ => ?_) (by omega) (by omega)
      exact AlikeUpTo.bind (m := 1) (alike_bumpSpace h) (fun _ => ih m _) (by omega) (by omega)
    · split
      · exact AlikeUpTo.bind (m := 0) (alike_bump c) (fun _ => .pure _) (by omega) (by omega)
      · exact .refuse

/-- the state before a brace such that what follows the brace does not stand in front of the tail -/
def Stuck (old : List Char) (t : State) : Prop :=
  (∃ rest, t.rest = '\x7b' :: rest) ∧ ∀ c k, bumpToNext (t.onto old) = some (c, State.onto k old) → k.rest = []

omit h in
/-- a boundary by the word between braces, from its first letter on -/
def namedBoundary (ascii : Bool) (fuel : Nat) : Parser Look := do
  let name ← specialWord [] fuel
  if name = "start".toList then return .wordStart ascii
  else if name = "end".toList then return .wordEnd ascii
  else if name = "start-half".toList then return .wordStartHalf ascii
  else if name = "end-half".toList then return .wordEndHalf ascii
  else refuse

omit h in
theorem boundaryEscape_eq (s : State) : boundaryEscape s =
    if s.rest.head? = some '\x7b' then
      (bumpToNext s).bind fun r =>
        if isSpecialWordChar r.1 then namedBoundary (!s.options.unicode) (s.rest.length + 1) r.2
        else some (.boundary (!s.options.unicode), s)
    else some (.boundary (!s.options.unicode), s) := by
  have hstart : boundaryEscape s =
      (if s.rest.head? ≠ some '\x7b' then pure (.boundary (!s.options.unicode))
        else bumpToNext >>= fun c =>
          if !isSpecialWordChar c then do
            set s
            return .boundary (!s.options.unicode)
          else namedBoundary (!s.options.unicode) (s.rest.length + 1) : Parser Look) s := rfl
  rw [hstart]
  by_cases hhead : s.rest.head? = some '\x7b'
  · rw [if_neg (not_not.2 hhead), if_pos hhead]
    refine congrArg (Option.bind (bumpToNext s)) (funext fun r => ?_)
    obtain ⟨c, mid⟩ := r
    dsimp only
    by_cases hspecial : isSpecialWordChar c = true
    · rw [hspecial]
      rfl
    · rw [Bool.not_eq_true] at hspecial
      rw [hspecial]
      rfl
  · rw [if_pos hhead, if_neg hhead]
    rfl

theorem alike_namedBoundary (ascii : Bool) (n m : Nat) :
    Alike old new [] 1 0 m (namedBoundary ascii n) (namedBoundary ascii m) := by
  unfold namedBoundary
  refine .bind (m := 0) (alike_specialWord h n m []) (fun name => ?_) (by omega) (by omega)
  split_ifs
  all_goals first
    | exact .pure _
    | exact .refuse

/-- the parser goes back to the brace if no word stands behind it, and what is behind it may be the tail -/
theorem boundaryEscape_up_to : AlikeUpTo (fun _ => Stuck old) old new [] 0 0 bound boundaryEscape boundaryEscape where
  moves := by
    intro s look t _ hx
    rw [boundaryEscape_eq] at hx
    split_ifs at hx with hhead
    · obtain ⟨⟨c, mid⟩, hnext, hx⟩ := Option.bind_eq_some_iff.1 hx
      have hfirst := bumpToNext_moves (List.singleton_prefix_iff_head?_eq_some.2 hhead) hnext
      dsimp only at hx
      split_ifs at hx
      · have hsecond := (alike_namedBoundary h _ _ 0).moves List.nil_prefix hx
        exact ⟨hsecond.1.trans hfirst.1, by omega⟩
      · obtain ⟨-, rfl⟩ := Prod.mk.inj (Option.some.inj hx)
        exact ⟨List.suffix_refl _, le_rfl⟩
    · obtain ⟨-, rfl⟩ := Prod.mk.inj (Option.some.inj hx)
      exact ⟨List.suffix_refl _, le_rfl⟩
  same := by
    intro s look t _ _ hquiet _ hx
    rw [boundaryEscape_eq] at hx ⊢
    have hoptions : ∀ tail, (s.onto tail).options = s.options := fun _ => rfl
    rw [hoptions] at hx ⊢
    have hold : (s.onto old).rest.head? = some '\x7b' ↔ s.rest.head? = some '\x7b' := head?_append_iff h.old (by decide)
    have hnew : (s.onto new).rest.head? = some '\x7b' ↔ s.rest.head? = some '\x7b' := head?_append_iff h.new (by decide)
    rw [if_congr hold rfl rfl] at hx
    rw [if_congr hnew rfl rfl]
    by_cases hbrace : s.rest.head? = some '\x7b'
    · rw [if_pos hbrace] at hx ⊢
      obtain ⟨⟨c, mid⟩, hnext, hx⟩ := Option.bind_eq_some_iff.1 hx
      dsimp only at hx
      have hlead : ['\x7b'] <+: s.rest := List.singleton_prefix_iff_head?_eq_some.2 hbrace
      have hmoves := bumpToNext_moves (prefix_onto hlead old) hnext
      by_cases hspecial : isSpecialWordChar c = true
      · -- a word is read, so what follows the brace stands in front of the tail
        rw [if_pos hspecial] at hx
        have hword := (alike_namedBoundary h _ _ 0).moves List.nil_prefix hx
        obtain ⟨k, rfl, hks, -⟩ := exists_onto hmoves.1 hword.1
        simp only [length_onto] at hmoves hword
        have hsame := (alike_bumpToNext h '\x7b').same hlead (Nat.lt_succ_self _) hquiet (by omega) hnext
        rw [hsame.resolve_right id, Option.bind_some, if_pos hspecial]
        refine ((alike_namedBoundary h _ _ _).same List.nil_prefix ?_ (hquiet.suffix hks) (Nat.zero_le _) hx).imp_right
          False.elim
        rw [length_onto]
        omega
      · rw [if_neg hspecial] at hx
        obtain ⟨rfl, hst⟩ := Prod.mk.inj (Option.some.inj hx)
        obtain rfl := onto_injective hst
        by_cases hfront : ∃ k, mid = State.onto k old ∧ k.rest ≠ []
        · obtain ⟨k, rfl, hk⟩ := hfront
          have hleft : 1 ≤ k.rest.length := List.length_pos_iff.2 hk
          have hsame := (alike_bumpToNext h '\x7b').same hlead (Nat.lt_succ_self _) hquiet hleft hnext
          rw [hsame.resolve_right id, Option.bind_some, if_neg hspecial]
          exact Or.inl rfl
        · refine Or.inr ⟨List.head?_eq_some_iff.1 hbrace, ?_⟩
          intro d k hk
          obtain ⟨-, rfl⟩ := Prod.mk.inj (Option.some.inj (hnext.symm.trans hk))
          by_contra hne
          exact hfront ⟨k, rfl, hne⟩
    · rw [if_neg hbrace] at hx ⊢
      obtain ⟨rfl, hst⟩ := Prod.mk.inj (Option.some.inj hx)
      rw [onto_injective hst]
      exact Or.inl rfl

/-- a test of the place that is read up to a brace -/
def StuckLook (old : List Char) (a : Atom) (t : State) : Prop := (∃ look, a = .look look) ∧ Stuck old t

theorem escape_up_to (c : Char) : AlikeUpTo (StuckLook old) old new [c] 2 0 bound escape escape := by
  unfold escape
  refine .bind (m := 1) (alike_bump c) (fun _ => ?_) (by omega) (by omega)
  refine next_bind (m := 1) (fun d => ?_) (by omega)
  refine .ite (fun _ => .refuse) fun _ => ?_
  refine .ite (fun _ => ?_) fun _ => ?_
  · exact .bind (m := 0) (alike_hexEscape h).anywhere (fun _ => .pure _) (by omega) (by omega)
  refine .ite (fun _ => ?_) fun _ => ?_
  · exact .bind (m := 0) (alike_propertyEscape h).anywhere (fun _ => .pure _) (by omega) (by omega)
  refine .ite (fun _ => ?_) fun _ => ?_
  · refine .bind (m := 0) (alike_bump d) (fun _ => ?_) (by omega) (by omega)
    exact .bind (m := 0) (alike_shortEscape d) (fun _ => .pure _) (by omega) (by omega)
  refine .bind (m := 0) (alike_bump d) (fun _ => options_bind fun o => ?_) (by omega) (by omega)
  -- all that is left stands for itself, but for the boundary
  refine .ite (fun _ => .pure _) fun _ => .ite (fun _ => .pure _) fun _ => .ite (fun _ => .pure _) fun _ => ?_
  refine .ite (fun _ => .pure _) fun _ => .ite (fun _ => .pure _) fun _ => .ite (fun _ => .pure _) fun _ => ?_
  refine .ite (fun _ => .pure _) fun _ => .ite (fun _ => .pure _) fun _ => .ite (fun _ => .pure _) fun _ => ?_
  refine .ite (fun _ => ?_) fun _ => ?_
  · refine .bind_up_to (m := 0) (boundaryEscape_up_to h) (fun _ => .pure _) (fun hstuck hread => ?_) (by omega)
      (by omega)
    obtain ⟨rfl, hst⟩ := Prod.mk.inj (Option.some.inj hread)
    rw [← onto_injective hst]
    exact ⟨⟨_, rfl⟩, hstuck⟩
  · exact .ite (fun _ => .pure _) fun _ => .ite (fun _ => .pure _) fun _ => .ite (fun _ => .pure _) fun _ => .refuse

end escapes

end PixelAudit.Pattern
