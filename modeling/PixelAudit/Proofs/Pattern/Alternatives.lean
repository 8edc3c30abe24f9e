/-
Groups, repetitions and whole patterns before different tails.

The alternatives of a pattern end before a closing bracket or at the end of the text, and nothing that they are made
of reaches into a tail. The one parser that looks into it stops at a brace (`Stuck`); a brace can only begin the
bounds of a repetition, and these need more than the tail behind it.

Main results: `alternatives_of_stuck` (nothing goes on from such a brace), `alike_alternatives` (what is read of a
pattern does not depend on what follows it).
-/
import PixelAudit.Proofs.Pattern.Classes

namespace PixelAudit.Pattern

open AlikeUpTo (options_bind get_bind look_bind next_bind bumpToNext_bind peek_bind of_fuel of_state)

variable {old new : List Char} {bound : Nat} {s t : State}

/-! ## The state -/

/-- a change of all but the rest -/
theorem alike_update {φ : State → State} (hrest : ∀ s, (φ s).rest = s.rest)
    (honto : ∀ s tail, φ (s.onto tail) = (φ s).onto tail) : Alike old new [] 0 0 bound (modify φ) (modify φ) where
  moves := by
    intro s c t _ hread
    obtain ⟨-, rfl⟩ := Prod.mk.inj (Option.some.inj hread)
    rw [hrest]
    exact ⟨List.suffix_refl _, le_rfl⟩
  same := by
    intro s c t _ _ _ _ hread
    have heq : φ (s.onto old) = t.onto old := (Prod.mk.inj (Option.some.inj hread)).2
    rw [honto] at heq
    obtain rfl := onto_injective heq
    exact Or.inl (congrArg (fun t => some ((), t)) (honto s new))

theorem alike_setOptions (o : Options) : Alike old new [] 0 0 bound (setOptions o) (setOptions o) :=
  alike_update (fun _ => rfl) fun _ _ => rfl

/-- a text without a closing bracket does not reach into a tail -/
theorem isPrefixOf_append {tail text : List Char} (htail : IsTail tail) (htext : ')' ∉ text)
    (cs : List Char) : text.isPrefixOf (cs ++ tail) = text.isPrefixOf cs := by
  rw [Bool.eq_iff_iff, List.isPrefixOf_iff_prefix, List.isPrefixOf_iff_prefix]
  refine ⟨fun hprefix => ?_, List.prefix_append_of_prefix⟩
  rcases List.prefix_or_prefix_of_prefix hprefix (List.prefix_append cs tail) with hfront | ⟨more, rfl⟩
  · exact hfront
  · have hmore : more <+: tail := (List.prefix_append_right_inj cs).1 hprefix
    rcases htail with rfl | ⟨rest, rfl⟩
    · rw [List.prefix_nil.1 hmore, List.append_nil]
    · rcases List.prefix_cons_iff.1 hmore with rfl | ⟨more, rfl, -⟩
      · rw [List.append_nil]
      · exact absurd (List.mem_append_right cs List.mem_cons_self) htext

/-- pass over a text, if it is said to come next -/
def passIf (text : String) (comes : Bool) : Parser Bool :=
  if comes then do
    modify fun s => { s with rest := s.rest.drop text.length }
    return true
  else return false

theorem bumpIf_eq (text : String) (s : State) : bumpIf text s = passIf text (text.toList.isPrefixOf s.rest) s := by
  have hstart : bumpIf text s =
      (if text.toList.isPrefixOf s.rest then do
        set { s with rest := s.rest.drop text.length }
        return true
      else return false : Parser Bool) s := rfl
  rw [hstart, passIf]
  split_ifs <;> rfl

theorem alike_passIf (text : String) (cs : List Char) : ∃ lead, lead <+: cs ∧
    Alike old new lead 0 0 bound (passIf text (text.toList.isPrefixOf cs))
      (passIf text (text.toList.isPrefixOf cs)) := by
  cases hcomes : text.toList.isPrefixOf cs with
  | true =>
    refine ⟨text.toList, List.isPrefixOf_iff_prefix.1 hcomes, ?_⟩
    have hlength : text.length ≤ text.toList.length := String.length_toList.ge
    exact .bind (m := 0) (alike_drop hlength) (fun _ => .pure _) (by omega) (by omega)
  | false => exact ⟨[], List.nil_prefix, .pure _⟩

section groups

variable (h : Tails old new)

include h

theorem alike_bumpIf {text : String} (htext : ')' ∉ text.toList) :
    Alike old new [] 0 0 bound (bumpIf text) (bumpIf text) := by
  refine of_state (fun s _ => ?_) fun s _ _ => ?_
  · obtain ⟨lead, hlead, halike⟩ := alike_passIf text s.rest
    exact ⟨lead, _, _, hlead, halike, bumpIf_eq text s⟩
  · obtain ⟨lead, hlead, halike⟩ := alike_passIf text s.rest
    refine ⟨lead, _, _, hlead, halike, ?_, ?_⟩
    · rw [bumpIf_eq, State.onto, isPrefixOf_append h.old htext]
    · rw [bumpIf_eq, State.onto, isPrefixOf_append h.new htext]

/-! ## Groups -/

omit h in
theorem alike_switches (w : Switches) (afterMinus : Bool) (n m : Nat) :
    Alike old new [] 0 1 m (switches w afterMinus n) (switches w afterMinus m) := by
  induction n generalizing w afterMinus m with
  | zero => exact .refuse
  | succ n ih =>
    refine of_fuel (fun m => ?_) m
    rw [switches, switches]
    refine next_bind (m := 0) (fun c => ?_) (by omega)
    -- the characters that end it stay, and all others are passed over
    have hon : ∀ w afterMinus, Alike old new [c] 0 1 (m + 1) (bump >>= fun _ => switches w afterMinus n)
        (bump >>= fun _ => switches w afterMinus m) := fun w afterMinus =>
      .bind (m := 0) (alike_bump c) (fun _ => ih w afterMinus m) (by omega) (by omega)
    refine .ite (fun _ => .ite (fun _ => .refuse) fun _ => .pure _)
      fun _ => ?_
    refine .ite (fun _ => .ite (fun _ => .refuse) fun _ => hon _ _) fun _ => ?_
    exact .ite (fun _ => hon _ _) fun _ => .refuse

omit h in
/-- the characters make up a name of a group -/
def isGroupName : List Char → Bool
  | [] => false
  | c :: more => isNameChar true c && more.all (isNameChar false)

omit h in
theorem groupName_eq_some : groupName s = some ((), t) ↔ ∃ name, '>' ∉ name ∧ s.rest = name ++ '>' :: t.rest ∧
    (isGroupName name && !s.groups.contains (String.ofList name)) = true ∧
      t = { s with rest := t.rest, groups := String.ofList name :: s.groups } := by
  have hget : ∀ f : State → Parser Unit, (get >>= f) s = f s s := fun _ => rfl
  rw [groupName, hget]
  dsimp only
  constructor
  · intro hread
    cases hdrop : s.rest.dropWhile (· != '>') with
    | nil =>
      rw [hdrop] at hread
      cases hread
    | cons c rest =>
      rw [hdrop] at hread
      dsimp only at hread
      split_ifs at hread with hwell
      · obtain ⟨-, rfl⟩ := Prod.mk.inj (Option.some.inj hread)
        have hmark := List.head?_dropWhile_not (· != '>') s.rest
        rw [hdrop] at hmark
        obtain rfl : c = '>' := by simpa using hmark
        refine ⟨_, fun hmem => ?_, ?_, hwell, rfl⟩
        · exact absurd (List.mem_takeWhile_imp hmem) (by decide)
        · rw [← hdrop, List.takeWhile_append_dropWhile]
      · cases hread
  · rintro ⟨name, hname, hrest, hwell, ht⟩
    rw [hrest, takeWhile_until hname, dropWhile_until hname]
    refine (congrFun (if_pos hwell) s).trans ?_
    rw [ht]
    rfl

omit h in
theorem alike_groupName : Alike old new [] 1 0 bound groupName groupName where
  moves := by
    intro s a t _ hread
    obtain ⟨name, -, hrest, -, -⟩ := groupName_eq_some.1 hread
    rw [hrest, List.length_append, List.length_cons]
    exact ⟨(List.suffix_cons _ _).trans (List.suffix_append _ _), by omega⟩
  same := by
    intro s a t _ _ _ _ hread
    obtain ⟨name, hname, hrest, hwell, ht⟩ := groupName_eq_some.1 hread
    obtain ⟨rest, o, groups, captures⟩ := t
    obtain ⟨-, rfl, rfl, rfl⟩ := State.mk.inj ht
    have hfront : s.rest = name ++ '>' :: rest := by
      have hboth : s.rest ++ old = (name ++ '>' :: rest) ++ old := by
        rw [List.append_assoc]
        exact hrest
      exact List.append_cancel_right hboth
    refine Or.inl (groupName_eq_some.2 ⟨name, hname, ?_, hwell, rfl⟩)
    rw [State.onto, hfront, List.append_assoc]
    rfl

omit h in
/-- what an opening bracket begins, if it is no look-around -/
def openingKind (o : Options) (fuel : Nat) : Parser Opening := do
  if (← bumpIf "?P<") || (← bumpIf "?<") then
    groupName
    return .group o true
  else if ← bumpIf "?" then
    let w ← switches ⟨[], [], false⟩ false fuel
    let stop ← next
    bump
    if stop = ')' then
      if w.on.isEmpty && w.off.isEmpty then refuse else return .options (w.apply o)
    else return .group (w.apply o) false
  else return .group o true

theorem alike_openingKind (o : Options) (n m : Nat) :
    Alike old new [] 0 0 m (openingKind o n) (openingKind o m) := by
  unfold openingKind
  refine .bind (m := 0) (alike_bumpIf h (by decide)) (fun _ => ?_) (by omega) (by omega)
  refine .bind (m := 0) (alike_bumpIf h (by decide)) (fun _ => ?_) (by omega) (by omega)
  refine .ite (fun _ => ?_) fun _ => ?_
  · exact .bind (m := 0) alike_groupName (fun _ => .pure _) (by omega) (by omega)
  · refine .bind (m := 0) (alike_bumpIf h (by decide)) (fun _ => ?_) (by omega) (by omega)
    refine .ite (fun _ => ?_) fun _ => .pure _
    refine .bind (m := 1) (alike_switches _ _ _ _) (fun w => ?_) (by omega) (by omega)
    refine next_bind (m := 1) (fun stop => ?_) (by omega)
    refine .bind (m := 0) (alike_bump stop) (fun _ => ?_) (by omega) (by omega)
    exact .ite (fun _ => .ite (fun _ => .refuse) fun _ => .pure _) fun _ => .pure _

omit h in
/-- a look-around begins here -/
def isLookaround (cs : List Char) : Bool := ["?=", "?!", "?<=", "?<!"].any fun mark => mark.toList.isPrefixOf cs

omit h in
theorem isLookaround_append {tail : List Char} (htail : IsTail tail) (cs : List Char) :
    isLookaround (cs ++ tail) = isLookaround cs := by
  have hmarks : ∀ mark ∈ ["?=", "?!", "?<=", "?<!"], ')' ∉ mark.toList := by decide
  rw [Bool.eq_iff_iff, isLookaround, isLookaround, List.any_eq_true, List.any_eq_true]
  refine exists_congr fun mark => and_congr_right fun hmark => ?_
  rw [isPrefixOf_append htail (hmarks mark hmark)]

omit h in
/-- from an opening bracket on, after blanks -/
def openingAfter (o : Options) (lookaround : Bool) (s : State) : Parser Opening :=
  if lookaround then refuse else openingKind o (s.rest.length + 1)

omit h in
theorem opening_eq : opening = (do
    bump
    bumpSpace
    let o ← options
    let s ← get
    openingAfter o (isLookaround s.rest) s) := by
  have hrefuse : ∀ (x : Parser Opening), (refuse >>= fun _ : Unit => x) = refuse := fun _ => rfl
  unfold opening
  simp only [hrefuse]
  rfl

theorem alike_opening (c : Char) : Alike old new [c] 1 0 bound opening opening := by
  rw [opening_eq]
  refine .bind (m := 0) (alike_bump c) (fun _ => ?_) (by omega) (by omega)
  refine .bind (m := 0) (alike_bumpSpace h) (fun _ => options_bind fun o => ?_) (by omega) (by omega)
  refine look_bind h (fun htail => isLookaround_append htail) fun lookaround s s' _ => ?_
  exact .ite (fun _ => .refuse) fun _ => alike_openingKind h o _ _

omit h in
/-- the number of a group, if it has one -/
def groupNumber (captures : Bool) : Parser (Option Nat) :=
  if captures then do
    modify fun s => { s with captures := s.captures + 1 }
    return some (← get).captures
  else return none

omit h in
theorem alike_groupNumber (captures : Bool) :
    Alike old new [] 0 0 bound (groupNumber captures) (groupNumber captures) := by
  refine .ite (fun _ => ?_) fun _ => .pure _
  refine .bind (m := 0) (alike_update (fun _ => rfl) fun _ _ => rfl) (fun _ => ?_) (by omega) (by omega)
  refine get_bind fun s s' hs => ?_
  rw [congrArg State.captures hs]
  exact .pure _

/-! ## Repetitions -/

theorem alike_dropBlanks : Alike old new [] 0 0 bound
    (modify fun s => { s with rest := s.rest.dropWhile Text.isBlank })
    (modify fun s => { s with rest := s.rest.dropWhile Text.isBlank }) where
  moves := by
    intro s c t _ hread
    obtain ⟨-, rfl⟩ := Prod.mk.inj (Option.some.inj hread)
    have hsuffix := List.dropWhile_suffix Text.isBlank (l := s.rest)
    exact ⟨hsuffix, hsuffix.length_le⟩
  same := by
    intro s c t _ _ _ _ hread
    have hdrop : ∀ tail, IsTail tail →
        ({ s.onto tail with rest := (s.onto tail).rest.dropWhile Text.isBlank } : State) =
          { s with rest := s.rest.dropWhile Text.isBlank }.onto tail := by
      intro tail htail
      simp only [State.onto, dropWhile_isBlank_append htail]
    obtain ⟨-, heq⟩ := Prod.mk.inj (Option.some.inj hread)
    obtain rfl := onto_injective ((hdrop old h.old).symm.trans heq)
    exact Or.inl (congrArg (fun t => some ((), t)) (hdrop new h.new))

theorem alike_gather (digits : List Char) (n m : Nat) :
    Alike old new [] 0 0 m (decimal.gather digits n) (decimal.gather digits m) := by
  induction n generalizing digits m with
  | zero => exact .refuse
  | succ n ih =>
    refine of_fuel (fun m => ?_) m
    rw [decimal.gather, decimal.gather]
    refine peek_bind h rfl rfl (.pure _) fun c _ => ?_
    refine .ite (fun _ => ?_) fun _ => .pure _
    refine .bind (m := 0) (alike_bump c) (fun _ => ?_) (by omega) (by omega)
    exact .bind (m := 0) (alike_bumpSpace h) (fun _ => ih _ m) (by omega) (by omega)

theorem alike_decimal : Alike old new [] 0 0 bound decimal decimal := by
  unfold decimal
  refine .bind (m := 0) (alike_dropBlanks h) (fun _ => ?_) (by omega) (by omega)
  refine get_bind fun s s' _ => ?_
  refine .bind (m := 0) (alike_gather h _ _ _) (fun digits => ?_) (by omega) (by omega)
  refine .bind (m := 0) (alike_dropBlanks h) (fun _ => ?_) (by omega) (by omega)
  exact .ite (fun _ => .pure _) fun _ => .ite (fun _ => .pure _) fun _ => .refuse

omit h in
/-- the closing brace of bounds -/
def closeBounds (r : Nat × Option Nat) : Parser (Nat × Option Nat) := do
  if (← next) ≠ '\x7d' then refuse
  bump
  bumpSpace
  match r.2 with
  | some m => if r.1 ≤ m then return r else refuse
  | none => return r

theorem alike_closeBounds (r : Nat × Option Nat) :
    Alike old new [] 1 0 bound (closeBounds r) (closeBounds r) := by
  unfold closeBounds
  refine next_bind (m := 1) (fun c => ?_) (by omega)
  refine .ite (fun _ => .refuse_bind) fun _ => ?_
  refine .bind (m := 0) (alike_bump c) (fun _ => ?_) (by omega) (by omega)
  refine .bind (m := 0) (alike_bumpSpace h) (fun _ => ?_) (by omega) (by omega)
  split
  · exact .ite (fun _ => .pure _) fun _ => .refuse
  · exact .pure _

omit h in
/-- what stands between the braces of bounds -/
def readBounds : Parser (Nat × Option Nat) := do
  let least ← decimal
  if (← next) = ',' then do
    let c ← bumpToNext
    match least with
    | none => refuse
    | some n =>
      if c = '\x7d' then return (n, none)
      else
        match ← decimal with
        | some m => return (n, some m)
        | none => refuse
  else
    match least with
    | some n => return (n, some n)
    | none => refuse

theorem alike_readBounds : Alike old new [] 0 1 bound readBounds readBounds := by
  unfold readBounds
  refine .bind (m := 0) (alike_decimal h) (fun least => ?_) (by omega) (by omega)
  refine next_bind (m := 0) (fun c => ?_) (by omega)
  refine .ite (fun _ => ?_) fun _ => ?_
  · refine bumpToNext_bind h (m := 0) (fun d => ?_) (by omega) (by omega)
    split
    · exact .refuse
    · refine .mono ?_ List.nil_prefix le_rfl (Nat.zero_le 1)
      refine .ite (fun _ => .pure _) fun _ => ?_
      refine .bind (m := 0) (alike_decimal h) (fun most => ?_) (by omega) (by omega)
      split
      · exact .pure _
      · exact .refuse
  · split
    · exact .pure _
    · exact .refuse

omit h in
theorem bounds_eq : bounds = (do
    let _ ← bumpToNext
    let r ← readBounds
    closeBounds r) := by
  have hrefuse : ∀ (x : Parser (Nat × Option Nat)), (refuse >>= fun _ : Unit => x) = refuse := fun _ => rfl
  unfold bounds readBounds closeBounds
  simp only [hrefuse]
  refine congrArg (bumpToNext >>= ·) (funext fun _ => ?_)
  rw [bind_assoc]
  refine congrArg (decimal >>= ·) (funext fun least => ?_)
  rw [bind_assoc]
  refine congrArg (next >>= ·) (funext fun c => ?_)
  split_ifs with hcomma
  · rw [bind_assoc]
    refine congrArg (bumpToNext >>= ·) (funext fun d => ?_)
    cases least with
    | none => rfl
    | some n =>
      dsimp only
      split_ifs with hclose
      · rfl
      · rw [bind_assoc]
        refine congrArg (decimal >>= ·) (funext fun most => ?_)
        cases most <;> rfl
  · cases least <;> rfl

theorem alike_bounds (c : Char) : Alike old new [c] 2 0 bound bounds bounds := by
  rw [bounds_eq]
  refine .bind (m := 1) (alike_bumpToNext h c) (fun _ => ?_) (by omega) (by omega)
  exact .bind (m := 1) (alike_readBounds h) (fun r => alike_closeBounds h r) (by omega) (by omega)

theorem alike_lazyMark : Alike old new [] 0 0 bound lazyMark lazyMark := by
  unfold lazyMark
  refine .bind (m := 0) (alike_bumpIf h (by decide)) (fun _ => ?_) (by omega) (by omega)
  exact options_bind fun o => .pure _

omit h in
theorem alike_shortBounds (least : Nat) (most : Option Nat) (c : Char) :
    Alike old new [c] 1 0 bound (shortBounds least most) (shortBounds least most) :=
  .bind (m := 0) (alike_bump c) (fun _ => .pure _) (by omega) (by omega)

theorem alike_repeatLast (items : List Item) {count : Parser (Nat × Option Nat)} {c : Char}
    (hcount : Alike old new [c] 1 0 bound count count) :
    Alike old new [c] 1 0 bound (repeatLast items count) (repeatLast items count) := by
  cases items with
  | nil => exact .refuse
  | cons last before =>
    refine .ite (fun _ => ?_) fun _ => .refuse
    refine .bind (m := 0) hcount (fun r => ?_) (by omega) (by omega)
    exact .bind (m := 0) (alike_lazyMark h) (fun _ => .pure _) (by omega) (by omega)

/-- bounds cannot be read from a brace that has nothing but the tail behind it -/
theorem bounds_of_stuck {k mid : State} {r : Nat × Option Nat} (hstuck : Stuck old k)
    (hread : bounds (k.onto old) = some (r, mid)) : ¬ (t.onto old).rest <:+ mid.rest := by
  intro hlast
  rw [bounds_eq] at hread
  obtain ⟨c, brace, hnext, hread⟩ := bind_eq_some.1 hread
  obtain ⟨rest, hrest⟩ := hstuck.1
  have hlead : ['\x7b'] <+: (k.onto old).rest := by
    rw [State.onto, hrest]
    exact List.prefix_append _ _
  have hfirst := bumpToNext_moves hlead hnext
  have hbody : Alike old new [] 1 0 0 (readBounds >>= closeBounds) (readBounds >>= closeBounds) :=
    .bind (m := 1) (alike_readBounds h) (fun r => alike_closeBounds h r) (by omega) (by omega)
  have hsecond := hbody.moves List.nil_prefix hread
  obtain ⟨j, rfl, -, -⟩ := exists_onto hfirst.1 (hlast.trans hsecond.1)
  have hempty := hstuck.2 c j hnext
  have hlength := hlast.length_le
  simp only [length_onto, hempty, List.length_nil] at hsecond hlength
  omega

/-! ## Items and alternatives -/

theorem primitive_up_to : AlikeUpTo (fun _ => Stuck old) old new [] 1 0 bound primitive primitive := by
  unfold primitive
  refine options_bind fun o => next_bind (m := 1) (fun c => ?_) (by omega)
  refine .ite (fun _ => ?_) fun _ => ?_
  · refine .bind_up_to (m := 0) ((escape_up_to h c).mono (List.prefix_refl _) (Nat.le_succ 1) le_rfl)
      (fun atom => ?_) ?_ (by omega) (by omega)
    · cases atom with
      | char c => exact .of_alike (alike_charForm c)
      | set set => exact .of_alike (alike_setForm set)
      | look look => exact .pure _
    · rintro atom k form t ⟨⟨look, rfl⟩, hstuck⟩ hread
      obtain ⟨-, hst⟩ := Prod.mk.inj (Option.some.inj hread)
      exact onto_injective hst ▸ hstuck
  · refine .bind (m := 0) (alike_bump c) (fun _ => ?_) (by omega) (by omega)
    refine .ite (fun _ => .of_alike alike_dotForm) fun _ => ?_
    exact .ite (fun _ => .pure _) fun _ => .ite (fun _ => .pure _) fun _ => .of_alike (alike_charForm c)

/-- after the count of a repetition only a question mark is passed over -/
theorem exists_of_repeatLast {items items' : List Item} {count : Parser (Nat × Option Nat)}
    (hread : repeatLast items count s = some (items', t)) :
    ∃ r mid, count s = some (r, mid) ∧ t.rest <:+ mid.rest := by
  cases items with
  | nil => cases hread
  | cons last before =>
    rw [repeatLast] at hread
    split_ifs at hread
    · obtain ⟨r, mid, hcount, hread⟩ := bind_eq_some.1 hread
      obtain ⟨marked, mark, hmark, hread⟩ := bind_eq_some.1 hread
      obtain ⟨-, rfl⟩ := Prod.mk.inj (Option.some.inj hread)
      have hlazy : Alike old new [] 0 0 0 lazyMark lazyMark := alike_lazyMark h
      exact ⟨r, mid, hcount, (hlazy.moves List.nil_prefix hmark).1⟩
    · cases hread

/-- the alternatives do not go on from a brace that has nothing but the tail behind it -/
theorem alternatives_of_stuck {before : List Node} {items : List Item} {n : Nat} {k : State} {node : Node}
    (ih : ∀ items', Alike old new [] 0 0 0 (alternatives before items' n) (alternatives before items' 0))
    (hstuck : Stuck old k) : alternatives before items (n + 1) (k.onto old) ≠ some (node, t.onto old) := by
  intro hread
  rw [alternatives] at hread
  obtain ⟨_, mid, hspace, hread⟩ := bind_eq_some.1 hread
  obtain ⟨rest, hrest⟩ := hstuck.1
  have hbrace : (k.onto old).rest = '\x7b' :: (rest ++ old) := by
    rw [State.onto, hrest]
    rfl
  have hkeep : skipVerbose (k.onto old).rest false = (k.onto old).rest := by
    rw [hbrace, skipVerbose, if_neg (by decide), if_neg (by decide)]
  rw [bumpSpace_eq, hkeep, ite_self] at hspace
  obtain ⟨-, rfl⟩ := Prod.mk.inj (Option.some.inj hspace)
  have hpeek : ∀ f : Option Char → Parser Node, (peek >>= f) (k.onto old) = f (k.onto old).rest.head? (k.onto old) :=
    fun _ => rfl
  rw [hpeek, hbrace] at hread
  obtain ⟨items', mid, hrepeat, hread⟩ := bind_eq_some.1 hread
  obtain ⟨r, mid', hbounds, hmid⟩ := exists_of_repeatLast h hrepeat
  exact bounds_of_stuck h hstuck hbounds (((ih items').moves List.nil_prefix hread).1.trans hmid)

omit h in
/-- a group from the start of its body on, and what follows it -/
def groupOnward (before : List Node) (items : List Item) (fuel : Nat) (inside outside : Options)
    (number : Option Nat) : Parser Node := do
  setOptions inside
  let body ← alternatives [] [] fuel
  if (← next) ≠ ')' then refuse
  bump
  setOptions outside
  alternatives before (⟨body.group number, true⟩ :: items) fuel

omit h in
theorem alike_groupOnward {n m : Nat} (before : List Node) (items : List Item) (inside outside : Options)
    (number : Option Nat)
    (ih : ∀ before items, Alike old new [] 0 0 m (alternatives before items n) (alternatives before items m)) :
    Alike old new [] 0 0 m (groupOnward before items n inside outside number)
      (groupOnward before items m inside outside number) := by
  unfold groupOnward
  refine .bind (m := 0) (alike_setOptions inside) (fun _ => ?_) (by omega) (by omega)
  refine .bind (m := 1) (ih _ _) (fun body => ?_) (by omega) (by omega)
  refine next_bind (m := 1) (fun c => ?_) (by omega)
  refine .ite (fun _ => .refuse_bind) fun _ => ?_
  refine .bind (m := 0) (alike_bump c) (fun _ => ?_) (by omega) (by omega)
  refine .bind (m := 0) (alike_setOptions outside) (fun _ => ?_) (by omega) (by omega)
  exact (ih _ _).shorter (by omega)

/-- What is read of a pattern does not depend on the tail that follows it. -/
theorem alike_alternatives (before : List Node) (items : List Item) (n m : Nat) :
    Alike old new [] 0 0 m (alternatives before items n) (alternatives before items m) := by
  induction n using Nat.strong_induction_on generalizing before items m with
  | _ n ih =>
    cases n with
    | zero => exact .refuse
    | succ n =>
      have ihn := fun before items => ih n (Nat.lt_succ_self n) before items
      refine of_fuel (fun m => ?_) m
      rw [alternatives, alternatives]
      refine .bind (m := 0) (alike_bumpSpace h) (fun _ => ?_) (by omega) (by omega)
      refine peek_bind h rfl rfl (.pure _) fun c hc => ?_
      -- something is passed over before the next item
      have hrepeat : ∀ {count : Parser (Nat × Option Nat)}, Alike old new [c] 1 0 (m + 1) count count →
          Alike old new [c] 0 0 (m + 1) (repeatLast items count >>= fun items => alternatives before items n)
            (repeatLast items count >>= fun items => alternatives before items m) := fun hcount =>
        .bind (m := 0) (alike_repeatLast h items hcount) (fun items' => ihn _ items' m) (by omega) (by omega)
      split
      case h_1 heq => cases heq
      case h_2 heq => exact absurd (Option.some.inj heq) hc
      case h_3 => exact .bind (m := 0) (alike_bump c) (fun _ => ihn _ _ m) (by omega) (by omega)
      case h_4 =>
        refine options_bind fun outside => ?_
        refine .bind (m := 0) (alike_opening h c) (fun opened => ?_) (by omega) (by omega)
        cases opened with
        | options o => exact .bind (m := 0) (alike_setOptions o) (fun _ => ihn _ _ m) (by omega) (by omega)
        | group inside captures =>
          have hgroup := fun number => alike_groupOnward before items inside outside number (ihn · · m)
          have hnumbered : Alike old new [] 0 0 m
              (groupNumber captures >>= groupOnward before items n inside outside)
              (groupNumber captures >>= groupOnward before items m inside outside) :=
            .bind (m := 0) (alike_groupNumber captures) hgroup (by omega) (by omega)
          cases captures with
          | true => exact hnumbered
          | false => exact hnumbered
      case h_5 =>
        refine .bind (m := 0) (alike_bracketClass h c) (fun node => ?_) (by omega) (by omega)
        exact (ihn _ _ m).shorter (by omega)
      case h_6 => exact hrepeat (alike_shortBounds 0 (some 1) c)
      case h_7 => exact hrepeat (alike_shortBounds 0 none c)
      case h_8 => exact hrepeat (alike_shortBounds 1 none c)
      case h_9 => exact hrepeat ((alike_bounds h c).mono (List.prefix_refl _) (Nat.le_succ 1) le_rfl)
      case h_10 =>
        refine .bind_up_to (m := 0) (primitive_up_to h).anywhere (fun form => ihn _ _ m) ?_ (by omega) (by omega)
        intro form k node t hstuck hread
        cases n with
        | zero => cases hread
        | succ n => exact alternatives_of_stuck h (fun items' => ih n (by omega) _ _ _) hstuck hread

end groups

end PixelAudit.Pattern
