/-
Parsers before different tails.

A pattern is read up to the end of the text or up to a closing bracket, and what is read up to there does not depend
on what follows. `AlikeUpTo` says this of a parser that meets one tail and a parser that meets another: where the
first stops in front of its tail, the second stops in front of the other with the same result. A tail is empty, or it
begins with a closing bracket. A parser may have to leave some characters in front of the tail, as it looks at the
next one without passing over it; then what comes after it has to pass over so many. Comments reach to the end of a
line, whatever stands there, so an empty tail stands for another one only if no comment can have been begun before it.

Main results: `AlikeUpTo.bind` (one parser after the other), `AlikeUpTo.bind_headed` (after a parser that looks
ahead), `AlikeUpTo.peek_bind` (a choice by the next character), `AlikeUpTo.of_fuel` (loops whose steps are counted).
-/
import PixelAudit.Pattern.Parser
import Mathlib.Tactic

namespace PixelAudit.Pattern

/-! ## States -/

/-- the state before more text -/
def State.onto (s : State) (tail : List Char) : State := { s with rest := s.rest ++ tail }

/-- what may stand after a part of a pattern: nothing, or something from a closing bracket on -/
def IsTail (tail : List Char) : Prop := tail = [] ∨ ∃ rest, tail = ')' :: rest

theorem isTail_nil : IsTail [] := Or.inl rfl

theorem isTail_bracket (rest : List Char) : IsTail (')' :: rest) := Or.inr ⟨rest, rfl⟩

/-- what stands after a part of a pattern in the one text and in the other -/
structure Tails (old new : List Char) : Prop where
  old : IsTail old
  new : IsTail new

/-- no comment is begun in a text that is followed by nothing -/
def Quiet (old rest : List Char) : Prop := old = [] → '#' ∉ rest

/-- where `x` stops in front of the tail `old` with so many characters left, `y` stops in front of `new` with the same
result, or there is an exception. The text begins with `lead` and is shorter than the bound in front of the tail, and at
least so many characters are used. -/
structure AlikeUpTo {α : Type} (E : α → State → Prop) (old new lead : List Char) (used left bound : Nat)
    (x y : Parser α) : Prop where
  moves : ∀ {s : State} {a : α} {t : State}, lead <+: s.rest → x s = some (a, t) →
    t.rest <:+ s.rest ∧ t.rest.length + used ≤ s.rest.length
  same : ∀ {s : State} {a : α} {t : State}, lead <+: s.rest → s.rest.length < bound → Quiet old s.rest →
    left ≤ t.rest.length → x (s.onto old) = some (a, t.onto old) → y (s.onto new) = some (a, t.onto new) ∨ E a t

/-- without exceptions -/
abbrev Alike {α : Type} : (old new lead : List Char) → (used left bound : Nat) → (x y : Parser α) → Prop :=
  AlikeUpTo fun _ _ => False

variable {α β : Type} {E : α → State → Prop} {F : β → State → Prop} {old new lead : List Char}
  {used left bound u k m l : Nat} {x y : Parser α} {f g : α → Parser β} {s t : State}

theorem bind_eq_some {b : β} :
    (x >>= f) s = some (b, t) ↔ ∃ a m, x s = some (a, m) ∧ f a m = some (b, t) := by
  have hbind : (x >>= f) s = (x s).bind fun r => f r.1 r.2 := rfl
  rw [hbind, Option.bind_eq_some_iff]
  exact Prod.exists

theorem quiet_bracket {rest part : List Char} : Quiet (')' :: rest) part :=
  fun h => absurd h (List.cons_ne_nil _ _)

theorem Quiet.suffix {rest part : List Char} (h : Quiet old rest) (hpart : part <:+ rest) : Quiet old part :=
  fun hold hmem => h hold (hpart.subset hmem)

theorem prefix_onto (h : lead <+: s.rest) (tail : List Char) : lead <+: (s.onto tail).rest :=
  h.trans (List.prefix_append _ _)

/-- what is met on the way to a place in front of the tail is in front of it too -/
theorem exists_onto {mid : State} (hmid : mid.rest <:+ (s.onto old).rest) (hlast : (t.onto old).rest <:+ mid.rest) :
    ∃ k : State, mid = k.onto old ∧ k.rest <:+ s.rest ∧ t.rest <:+ k.rest := by
  obtain ⟨front, hfront⟩ := hlast
  obtain ⟨used, hused⟩ := hmid
  have hrest : mid.rest = (front ++ t.rest) ++ old := by rw [← hfront, State.onto, List.append_assoc]
  refine ⟨{ mid with rest := front ++ t.rest }, ?_, ⟨used, ?_⟩, List.suffix_append _ _⟩
  · rw [State.onto, ← hrest]
  · rw [hrest, State.onto, ← List.append_assoc] at hused
    exact List.append_cancel_right hused

theorem onto_injective {tail : List Char} (h : s.onto tail = t.onto tail) : s = t := by
  obtain ⟨rest, options, groups, captures⟩ := s
  obtain ⟨rest', options', groups', captures'⟩ := t
  simp only [State.onto, State.mk.injEq] at h
  obtain ⟨hrest, rfl, rfl, rfl⟩ := h
  rw [List.append_cancel_right hrest]

theorem length_onto (s : State) (tail : List Char) : (s.onto tail).rest.length = s.rest.length + tail.length :=
  List.length_append

/-! ## Parsers one after the other -/

namespace AlikeUpTo

/-- a parser that is used where less is asked for -/
theorem mono (h : AlikeUpTo E old new lead used left bound x y) {lead' : List Char} {used' left' : Nat}
    (hlead : lead <+: lead') (hused : used' ≤ used) (hleft : left ≤ left') :
    AlikeUpTo E old new lead' used' left' bound x y where
  moves := by
    intro s a t hs hx
    have hmoves := h.moves (hlead.trans hs) hx
    exact ⟨hmoves.1, by omega⟩
  same hs hbound hquiet hl := h.same (hlead.trans hs) hbound hquiet (hleft.trans hl)

/-- a parser that does not ask what comes next -/
theorem anywhere (h : AlikeUpTo E old new [] used left bound x y) : AlikeUpTo E old new lead used left bound x y :=
  h.mono List.nil_prefix le_rfl le_rfl

/-- a parser that is used where the text is shorter -/
theorem shorter (h : AlikeUpTo E old new lead used left bound x y) {bound' : Nat} (hle : bound' ≤ bound) :
    AlikeUpTo E old new lead used left bound' x y where
  moves := h.moves
  same hs hbound hquiet hl := h.same hs (hbound.trans_le hle) hquiet hl

/-- without exceptions, none are met -/
theorem of_alike (h : Alike old new lead used left bound x y) : AlikeUpTo E old new lead used left bound x y where
  moves := h.moves
  same hs hbound hquiet hl hx := (h.same hs hbound hquiet hl hx).imp_right False.elim

protected theorem pure (a : α) : AlikeUpTo E old new lead 0 left bound (pure a) (pure a) where
  moves := by
    intro s b t _ hx
    obtain ⟨rfl, rfl⟩ : a = b ∧ s = t := by simpa using Option.some.inj hx
    exact ⟨List.suffix_refl _, le_rfl⟩
  same := by
    intro s b t _ _ _ _ hx
    obtain ⟨rfl, hst⟩ : a = b ∧ s.onto old = t.onto old := by simpa using Option.some.inj hx
    rw [onto_injective hst]
    exact Or.inl rfl

/-- of a parser that refuses everything nothing is asked -/
theorem refuse : AlikeUpTo E old new lead used left bound Pattern.refuse y where
  moves := by
    intro s a t _ hx
    cases hx
  same := by
    intro s a t _ _ _ _ hx
    cases hx

/-- a choice that is the same for both -/
protected theorem ite {c : Prop} [Decidable c] {x' y' : Parser α}
    (hx : c → AlikeUpTo E old new lead used left bound x y)
    (hx' : ¬ c → AlikeUpTo E old new lead used left bound x' y') :
    AlikeUpTo E old new lead used left bound (if c then x else x') (if c then y else y') := by
  by_cases hc : c
  · rw [if_pos hc, if_pos hc]
    exact hx hc
  · rw [if_neg hc, if_neg hc]
    exact hx' hc

theorem refuse_bind {y : Parser β} : AlikeUpTo F old new lead used left bound (Pattern.refuse >>= f) y where
  moves := by
    intro s a t _ hx
    cases hx
  same := by
    intro s a t _ _ _ _ hx
    cases hx

/-- Where the first part ends in an exception and the second part goes on to a place in front of the tail, this has to
be an exception too. -/
theorem bind_up_to (hx : AlikeUpTo E old new lead used left bound x y)
    (hf : ∀ a, AlikeUpTo F old new [] m l (bound - used) (f a) (g a))
    (hE : ∀ {a : α} {k : State} {b : β} {t : State}, E a k → f a (k.onto old) = some (b, t.onto old) → F b t)
    (hu : u ≤ used + m) (hl : left ≤ l + m) : AlikeUpTo F old new lead u l bound (x >>= f) (y >>= g) where
  moves := by
    intro s b t hs h
    obtain ⟨a, mid, hxs, hfs⟩ := bind_eq_some.1 h
    have hfirst := hx.moves hs hxs
    have hsecond := (hf a).moves List.nil_prefix hfs
    exact ⟨hsecond.1.trans hfirst.1, by omega⟩
  same := by
    intro s b t hs hbound hquiet ht h
    obtain ⟨a, mid, hxs, hfs⟩ := bind_eq_some.1 h
    have hfirst := hx.moves (prefix_onto hs old) hxs
    have hsecond := (hf a).moves List.nil_prefix hfs
    obtain ⟨k, rfl, hks, -⟩ := exists_onto hfirst.1 hsecond.1
    simp only [length_onto] at hfirst hsecond
    rcases hx.same hs hbound hquiet (by omega) hxs with hy | hexception
    · refine ((hf a).same List.nil_prefix (by omega) (hquiet.suffix hks) ht hfs).imp_left fun hg => ?_
      exact bind_eq_some.2 ⟨a, _, hy, hg⟩
    · exact Or.inr (hE hexception hfs)

/-- One parser after the other: what they use adds up, and what the first has to leave the second may pass over. -/
protected theorem bind (hx : Alike old new lead used left bound x y)
    (hf : ∀ a, AlikeUpTo F old new [] m l (bound - used) (f a) (g a)) (hu : u ≤ used + m) (hl : left ≤ l + m) :
    AlikeUpTo F old new lead u l bound (x >>= f) (y >>= g) :=
  bind_up_to hx hf False.elim hu hl

/-- after a parser that ends before a character that it tells of, that character may be passed over -/
theorem bind_headed (φ : α → Char) (hx : Alike old new lead used left bound x y)
    (hpost : ∀ {s : State} {a : α} {t : State}, x s = some (a, t) → t.rest.head? = some (φ a))
    (hf : ∀ a, AlikeUpTo F old new [φ a] m l (bound - used) (f a) (g a)) (hu : u ≤ used + m) (hl : left ≤ l + m)
    (hahead : 1 ≤ l + m) : AlikeUpTo F old new lead u l bound (x >>= f) (y >>= g) where
  moves := by
    intro s b t hs h
    obtain ⟨a, mid, hxs, hfs⟩ := bind_eq_some.1 h
    have hfirst := hx.moves hs hxs
    have hsecond := (hf a).moves (List.singleton_prefix_iff_head?_eq_some.2 (hpost hxs)) hfs
    exact ⟨hsecond.1.trans hfirst.1, by omega⟩
  same := by
    intro s b t hs hbound hquiet ht h
    obtain ⟨a, mid, hxs, hfs⟩ := bind_eq_some.1 h
    have hhead := hpost hxs
    have hfirst := hx.moves (prefix_onto hs old) hxs
    have hsecond := (hf a).moves (List.singleton_prefix_iff_head?_eq_some.2 hhead) hfs
    obtain ⟨k, rfl, hks, -⟩ := exists_onto hfirst.1 hsecond.1
    simp only [length_onto] at hfirst hsecond
    -- the character stands in front of the tail, as something is left there
    have hkhead : k.rest.head? = some (φ a) := by
      cases hk : k.rest with
      | nil => rw [hk, List.length_nil] at hsecond; omega
      | cons c rest =>
        rw [State.onto, hk] at hhead
        exact hhead
    rcases hx.same hs hbound hquiet (by omega) hxs with hy | hexception
    · have hlead := List.singleton_prefix_iff_head?_eq_some.2 hkhead
      refine ((hf a).same hlead (by omega) (hquiet.suffix hks) ht hfs).imp_left fun hg => ?_
      exact bind_eq_some.2 ⟨a, _, hy, hg⟩
    · exact hexception.elim

/-- a loop is alike under the bound that it counts, if each of its steps is -/
theorem of_fuel {loop : Nat → Parser α} (h : ∀ n, AlikeUpTo E old new lead used left (n + 1) x (loop (n + 1)))
    (n : Nat) :
    AlikeUpTo E old new lead used left n x (loop n) := by
  cases n with
  | zero => exact ⟨(h 0).moves, fun _ hbound => absurd hbound (Nat.not_lt_zero _)⟩
  | succ n => exact h n

end AlikeUpTo

/-! ## Characters -/

/-- in front of a tail the same character comes next, if it is no closing bracket -/
theorem head?_append_iff {cs tail : List Char} (htail : IsTail tail) {c : Char}
    (hc : c ≠ ')') : (cs ++ tail).head? = some c ↔ cs.head? = some c := by
  cases cs with
  | nil =>
    rcases htail with rfl | ⟨rest, rfl⟩
    · rfl
    · simp [hc.symm]
  | cons d cs => rfl

/-- no tail begins with a blank -/
theorem dropWhile_isBlank_append {tail : List Char} (htail : IsTail tail) (cs : List Char) :
    (cs ++ tail).dropWhile Text.isBlank = cs.dropWhile Text.isBlank ++ tail := by
  have hkeep : tail.dropWhile Text.isBlank = tail := by
    rcases htail with rfl | ⟨rest, rfl⟩
    · rfl
    · exact List.dropWhile_cons_of_neg (by decide)
  rw [List.dropWhile_append, hkeep]
  split_ifs with hempty
  · rw [List.isEmpty_iff.1 hempty]
    rfl
  · rfl

theorem next_eq (s : State) : next s = s.rest.head?.map fun c => (c, s) := by
  obtain ⟨rest, options, groups, captures⟩ := s
  cases rest <;> rfl

theorem head?_of_next {c : Char} (h : next s = some (c, t)) : t.rest.head? = some c := by
  rw [next_eq] at h
  obtain ⟨d, hd, heq⟩ := Option.map_eq_some_iff.1 h
  obtain ⟨rfl, rfl⟩ := Prod.mk.inj heq
  exact hd

theorem head?_of_bumpToNext {c : Char} (h : bumpToNext s = some (c, t)) : t.rest.head? = some c := by
  obtain ⟨-, mid, -, h⟩ := bind_eq_some.1 h
  obtain ⟨-, mid, -, h⟩ := bind_eq_some.1 h
  exact head?_of_next h

theorem alike_next : Alike old new lead 0 1 bound next next where
  moves := by
    intro s c t _ h
    rw [next_eq] at h
    obtain ⟨d, -, heq⟩ := Option.map_eq_some_iff.1 h
    obtain ⟨-, rfl⟩ := Prod.mk.inj heq
    exact ⟨List.suffix_refl _, le_rfl⟩
  same := by
    intro s c t _ _ _ ht h
    have hhead := head?_of_next h
    rw [next_eq] at h
    obtain ⟨d, -, heq⟩ := Option.map_eq_some_iff.1 h
    obtain rfl := onto_injective (Prod.mk.inj heq).2
    -- the character stands in front of the tail
    obtain ⟨e, rest, hrest⟩ := List.exists_cons_of_length_pos ht
    have hboth : ∀ tail, (s.onto tail).rest.head? = some e := by
      intro tail
      rw [State.onto, hrest]
      rfl
    obtain rfl : e = c := Option.some.inj ((hboth old).symm.trans hhead)
    rw [next_eq, hboth]
    exact Or.inl rfl

/-- characters that are known to come are passed over -/
theorem alike_drop {n : Nat} (hn : n ≤ lead.length) :
    Alike old new lead n 0 bound (modify fun s => { s with rest := s.rest.drop n })
      (modify fun s => { s with rest := s.rest.drop n }) where
  moves := by
    intro s c t hs h
    obtain ⟨-, rfl⟩ := Prod.mk.inj (Option.some.inj h)
    have hlength := hs.length_le
    refine ⟨List.drop_suffix n s.rest, ?_⟩
    rw [List.length_drop]
    omega
  same := by
    intro s c t hs _ _ _ h
    have hlength := hs.length_le
    have hdrop : ∀ tail, ({ s.onto tail with rest := (s.onto tail).rest.drop n } : State) =
        { s with rest := s.rest.drop n }.onto tail := by
      intro tail
      simp only [State.onto, List.drop_append_of_le_length (hn.trans hlength)]
    obtain ⟨-, heq⟩ := Prod.mk.inj (Option.some.inj h)
    obtain rfl := onto_injective ((hdrop old).symm.trans heq)
    exact Or.inl (congrArg (fun t => some ((), t)) (hdrop new))

theorem bump_eq : bump = modify fun s => { s with rest := s.rest.drop 1 } := by
  unfold bump
  simp only [List.drop_one]

theorem alike_bump (c : Char) : Alike old new [c] 1 0 bound bump bump := by
  rw [bump_eq]
  exact alike_drop le_rfl

theorem skipVerbose_suffix (cs : List Char) (comment : Bool) : skipVerbose cs comment <:+ cs := by
  induction cs generalizing comment with
  | nil => cases comment <;> exact List.suffix_refl _
  | cons c rest ih =>
    cases comment with
    | true => exact (ih _).trans (List.suffix_cons _ _)
    | false =>
      rw [skipVerbose]
      split_ifs
      · exact (ih _).trans (List.suffix_cons _ _)
      · exact (ih _).trans (List.suffix_cons _ _)
      · exact List.suffix_refl _

/-- what is skipped in front of one tail is skipped in front of the other, unless a comment reaches into it -/
theorem skipVerbose_append (h : Tails old new) {cs left : List Char} {comment : Bool} (hquiet : Quiet old cs)
    (hcomment : old = [] → comment = false) (hskip : skipVerbose (cs ++ old) comment = left ++ old) :
    skipVerbose (cs ++ new) comment = left ++ new := by
  induction cs generalizing comment with
  | nil =>
    cases comment with
    | true =>
      -- a comment does not stop in front of the tail
      rcases h.old with rfl | ⟨rest, rfl⟩
      · cases hcomment rfl
      · have hsuffix := skipVerbose_suffix rest true
        have hlength := hsuffix.length_le
        have hstep : skipVerbose (')' :: rest) true = skipVerbose rest true := rfl
        rw [List.nil_append, hstep] at hskip
        rw [hskip, List.length_append, List.length_cons] at hlength
        omega
    | false =>
      have hkeep : ∀ {tail : List Char}, IsTail tail → skipVerbose tail false = tail := by
        rintro tail (rfl | ⟨rest, rfl⟩)
        · rfl
        · rw [skipVerbose, if_neg (by decide), if_neg (by decide)]
      rw [List.nil_append, hkeep h.old] at hskip
      obtain rfl : left = [] := by simpa using hskip
      exact hkeep h.new
  | cons c cs ih =>
    have hrest : Quiet old cs := hquiet.suffix (List.suffix_cons c cs)
    cases comment with
    | true => exact ih hrest (fun hold => absurd (hcomment hold) (by decide)) hskip
    | false =>
      rw [List.cons_append, skipVerbose] at hskip ⊢
      split_ifs at hskip ⊢ with hblank hmark
      · exact ih hrest (fun _ => rfl) hskip
      · refine ih hrest (fun hold => ?_) hskip
        exact absurd (hmark ▸ List.mem_cons_self) (hquiet hold)
      · rw [← List.cons_append] at hskip
        rw [← List.append_cancel_right hskip]
        rfl

theorem bumpSpace_eq (s : State) : bumpSpace s =
    some ((), if s.options.verbose then { s with rest := skipVerbose s.rest false } else s) := rfl

theorem alike_bumpSpace (h : Tails old new) : Alike old new lead 0 0 bound bumpSpace bumpSpace where
  moves := by
    intro s c t _ hx
    rw [bumpSpace_eq] at hx
    obtain ⟨-, rfl⟩ := Prod.mk.inj (Option.some.inj hx)
    split_ifs
    · have hsuffix := skipVerbose_suffix s.rest false
      exact ⟨hsuffix, hsuffix.length_le⟩
    · exact ⟨List.suffix_refl _, le_rfl⟩
  same := by
    intro s c t _ _ hquiet _ hx
    rw [bumpSpace_eq] at hx ⊢
    have heq := (Prod.mk.inj (Option.some.inj hx)).2
    refine Or.inl (congrArg (fun t => some ((), t)) ?_)
    have hoptions : ∀ tail, (s.onto tail).options = s.options := fun _ => rfl
    rw [hoptions] at heq ⊢
    split_ifs at heq ⊢ with hverbose
    · have hrest := skipVerbose_append h hquiet (fun _ => rfl) (congrArg State.rest heq)
      obtain ⟨rest, options, groups, captures⟩ := t
      simp only [State.onto, State.mk.injEq] at heq hrest ⊢
      exact ⟨hrest, heq.2⟩
    · rw [onto_injective heq]

theorem alike_bumpToNext (h : Tails old new) (c : Char) : Alike old new [c] 1 1 bound bumpToNext bumpToNext :=
  have hspace : Alike old new [] 0 1 (bound - 1) (bumpSpace >>= fun _ => next) (bumpSpace >>= fun _ => next) :=
    AlikeUpTo.bind (alike_bumpSpace h) (fun _ => alike_next) le_rfl (by omega)
  AlikeUpTo.bind (alike_bump c) (fun _ => hspace) le_rfl (by omega)

theorem bumpToNext_moves {c d : Char} (hlead : [c] <+: s.rest) (hread : bumpToNext s = some (d, t)) :
    t.rest <:+ s.rest ∧ t.rest.length + 1 ≤ s.rest.length :=
  have halike : Alike [] [] [c] 1 1 0 bumpToNext bumpToNext := alike_bumpToNext ⟨isTail_nil, isTail_nil⟩ c
  halike.moves hlead hread

namespace AlikeUpTo

theorem next_bind {f g : Char → Parser β} (hf : ∀ c, AlikeUpTo F old new [c] m l bound (f c) (g c))
    (hahead : 1 ≤ l + m) : AlikeUpTo F old new lead m l bound (next >>= f) (next >>= g) :=
  bind_headed id alike_next head?_of_next hf (Nat.zero_add m).ge hahead hahead

theorem bumpToNext_bind (h : Tails old new) {c : Char} {f g : Char → Parser β}
    (hf : ∀ d, AlikeUpTo F old new [d] m l (bound - 1) (f d) (g d)) (hahead : 1 ≤ l + m) (hu : u ≤ 1 + m) :
    AlikeUpTo F old new [c] u l bound (bumpToNext >>= f) (bumpToNext >>= g) :=
  bind_headed id (alike_bumpToNext h c) head?_of_bumpToNext hf hu hahead hahead

/-- both are in the same state, but for the tail -/
theorem options_bind {f g : Options → Parser β} (hf : ∀ o, AlikeUpTo F old new lead u l bound (f o) (g o)) :
    AlikeUpTo F old new lead u l bound (options >>= f) (options >>= g) where
  moves hs h := (hf _).moves hs h
  same hs hbound hquiet hl h := (hf _).same hs hbound hquiet hl h

/-- the states differ in the rest only, and the whole text is longer than what stands in front of the tail -/
theorem get_bind {f g : State → Parser β} (hf : ∀ s s' : State, s' = { s with rest := s'.rest } →
      AlikeUpTo F old new lead u l (s'.rest.length + 1) (f s) (g s')) :
    AlikeUpTo F old new lead u l bound (get >>= f) (get >>= g) where
  moves {s _ _} hs h := (hf s s rfl).moves hs h
  same := by
    intro s a t hs _ hquiet hl h
    have hbound : s.rest.length < (s.onto new).rest.length + 1 := by
      rw [length_onto]
      omega
    exact (hf (s.onto old) (s.onto new) rfl).same hs hbound hquiet hl h

/-- the same with a choice by a test of the rest that does not see the tail -/
theorem look_bind (h : Tails old new) {test : List Char → Bool}
    (htest : ∀ {tail}, IsTail tail → ∀ cs, test (cs ++ tail) = test cs)
    {f g : Bool → State → Parser β} (hf : ∀ b, ∀ s s' : State, s' = { s with rest := s'.rest } →
      AlikeUpTo F old new lead u l (s'.rest.length + 1) (f b s) (g b s')) :
    AlikeUpTo F old new lead u l bound (get >>= fun s => f (test s.rest) s) (get >>= fun s => g (test s.rest) s) where
  moves {s _ _} hs hread := (hf (test s.rest) s s rfl).moves hs hread
  same := by
    intro s a t hs hbound hquiet hl hread
    have hstart : ∀ (f : Bool → State → Parser β) (tail : List Char), IsTail tail →
        (get >>= fun s => f (test s.rest) s) (s.onto tail) = (get >>= fun t => f (test s.rest) t) (s.onto tail) :=
      fun f tail htail => congrArg (fun b => f b (s.onto tail) (s.onto tail)) (htest htail s.rest)
    rw [hstart f old h.old] at hread
    rw [hstart g new h.new]
    exact (get_bind (hf _)).same hs hbound hquiet hl hread

/-- Two parsers are alike if in each state they do what two parsers do that are alike. In front of a tail the text may
be taken to be as long as what they use. -/
theorem of_state
    (hx : ∀ s : State, lead <+: s.rest → ∃ (lead' : List Char) (x' y' : Parser α), lead' <+: s.rest ∧
      AlikeUpTo E old new lead' used left bound x' y' ∧ x s = x' s)
    (hboth : ∀ s : State, lead <+: s.rest → used ≤ s.rest.length → ∃ (lead' : List Char) (x' y' : Parser α),
      lead' <+: s.rest ∧ AlikeUpTo E old new lead' used left bound x' y' ∧ x (s.onto old) = x' (s.onto old) ∧
        y (s.onto new) = y' (s.onto new)) : AlikeUpTo E old new lead used left bound x y where
  moves := by
    intro s a t hs hread
    obtain ⟨lead', x', y', hlead, halike, heq⟩ := hx s hs
    exact halike.moves hlead (heq ▸ hread)
  same := by
    intro s a t hs hbound hquiet hl hread
    have hused : used ≤ s.rest.length := by
      obtain ⟨lead', x', y', hlead, halike, heq⟩ := hx (s.onto old) (prefix_onto hs old)
      have hmoves := (halike.moves hlead (heq ▸ hread)).2
      simp only [length_onto] at hmoves
      omega
    obtain ⟨lead', x', y', hlead, halike, hold, hnew⟩ := hboth s hs hused
    rw [hold] at hread
    rw [hnew]
    exact halike.same hlead hbound hquiet hl hread

/-- a choice by the next character; at the end of the text it goes as before a closing bracket -/
theorem peek_bind (h : Tails old new) {f g : Option Char → Parser β} (hf : f (some ')') = f none)
    (hg : g (some ')') = g none) (hend : AlikeUpTo F old new lead u l bound (f none) (g none))
    (hcons : ∀ c, c ≠ ')' → AlikeUpTo F old new [c] u l bound (f (some c)) (g (some c))) :
    AlikeUpTo F old new lead u l bound (peek >>= f) (peek >>= g) where
  moves := by
    intro s a t hs hx
    have hpeek : (peek >>= f) s = f s.rest.head? s := rfl
    rw [hpeek] at hx
    cases hhead : s.rest.head? with
    | none =>
      rw [hhead] at hx
      exact hend.moves hs hx
    | some c =>
      rw [hhead] at hx
      by_cases hc : c = ')'
      · subst hc
        rw [hf] at hx
        exact hend.moves hs hx
      · exact (hcons c hc).moves (List.singleton_prefix_iff_head?_eq_some.2 hhead) hx
  same := by
    intro s a t hs hbound hquiet ht hx
    have hpeek : ∀ {f : Option Char → Parser β} {tail}, (peek >>= f) (s.onto tail) =
        f (s.rest ++ tail).head? (s.onto tail) := rfl
    rw [hpeek] at hx ⊢
    cases hrest : s.rest with
    | nil =>
      have hold : f old.head? = f none := by
        rcases h.old with rfl | ⟨rest, rfl⟩
        · rfl
        · exact hf
      have hnew : g new.head? = g none := by
        rcases h.new with rfl | ⟨rest, rfl⟩
        · rfl
        · exact hg
      rw [hrest, List.nil_append, hold] at hx
      rw [List.nil_append, hnew]
      exact hend.same hs hbound hquiet ht hx
    | cons c rest =>
      rw [hrest, List.cons_append, List.head?_cons] at hx
      rw [List.cons_append, List.head?_cons]
      by_cases hc : c = ')'
      · subst hc
        rw [hf] at hx
        rw [hg]
        exact hend.same hs hbound hquiet ht hx
      · exact (hcons c hc).same (by rw [hrest]; exact List.prefix_append [c] rest) hbound hquiet ht hx

end AlikeUpTo

end PixelAudit.Pattern
