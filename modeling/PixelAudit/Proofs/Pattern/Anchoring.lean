/-
Patterns between the tests for start and end of the text.

A pattern is put between the tests as it is written, and the whole is read anew. What is read of the pattern then is
what is read of it on its own, as long as the bracket behind it ends it: `Closed`. A comment that is still open there
takes the bracket in, and a closing bracket inside the pattern that has no opening one ends the group before its time.

Main results: `parse?_eq_some` (a pattern on its own), `closed_of_read?` (patterns without comments are closed),
`exists_compile?_iff` (when a pattern that can be read on its own can be used), `accepts_iff` (what it accepts then),
`exists_bracket_of_compile?` (what is used and cannot be read on its own has a closing bracket inside it).
-/
import PixelAudit.Proofs.Pattern.Alternatives
import PixelAudit.Proofs.Pattern.Matching
import PixelAudit.Pattern.Anchored

namespace PixelAudit.Pattern

open Text (CodeSet)

/-! ## Single steps -/

/-- the state at the start of a pattern -/
def State.start (source : List Char) (ignoreCase : Bool) : State := ⟨source, { ignoreCase }, [], 0⟩

variable {ignoreCase : Bool} {before : List Node} {items : List Item} {groups : List String} {captures n : Nat}
  {rest : List Char}

theorem alternatives_textStart :
    alternatives before items (n + 1) ⟨'^' :: rest, { ignoreCase }, groups, captures⟩ =
      alternatives before (⟨Node.leaf (.look .textStart), true⟩ :: items) n
        ⟨rest, { ignoreCase }, groups, captures⟩ :=
  rfl

theorem alternatives_textEnd :
    alternatives before items (n + 1) ⟨'$' :: rest, { ignoreCase }, groups, captures⟩ =
      alternatives before (⟨Node.leaf (.look .textEnd), true⟩ :: items) n
        ⟨rest, { ignoreCase }, groups, captures⟩ :=
  rfl

theorem alternatives_end :
    alternatives before items (n + 1) ⟨[], { ignoreCase }, groups, captures⟩ =
      some (Node.alternation (closeItems items :: before).reverse, ⟨[], { ignoreCase }, groups, captures⟩) :=
  rfl

theorem alternatives_group :
    alternatives before items (n + 1) ⟨'(' :: '?' :: ':' :: rest, { ignoreCase }, groups, captures⟩ =
      groupOnward before items n { ignoreCase } { ignoreCase } none ⟨rest, { ignoreCase }, groups, captures⟩ :=
  rfl

theorem groupOnward_eq_some {cs : List Char} {node : Node} {t : State} :
    groupOnward before items n { ignoreCase } { ignoreCase } none (.start cs ignoreCase) = some (node, t) ↔
      ∃ body mid rest, alternatives [] [] n (.start cs ignoreCase) = some (body, mid) ∧ mid.rest = ')' :: rest ∧
        alternatives before (⟨body.group none, true⟩ :: items) n ⟨rest, { ignoreCase }, mid.groups, mid.captures⟩ =
          some (node, t) := by
  unfold groupOnward
  constructor
  · intro hread
    obtain ⟨_, start, hstart, hread⟩ := bind_eq_some.1 hread
    obtain ⟨-, rfl⟩ := Prod.mk.inj (Option.some.inj hstart)
    obtain ⟨body, mid, hbody, hread⟩ := bind_eq_some.1 hread
    obtain ⟨c, mid', hnext, hread⟩ := bind_eq_some.1 hread
    have hmid := hnext
    rw [next_eq] at hmid
    obtain ⟨d, hd, heq⟩ := Option.map_eq_some_iff.1 hmid
    obtain ⟨rfl, rfl⟩ := Prod.mk.inj heq
    obtain ⟨rest, hrest⟩ := List.head?_eq_some_iff.1 hd
    by_cases hd : d = ')'
    · subst hd
      refine ⟨body, mid, rest, hbody, hrest, ?_⟩
      obtain ⟨cs, o, groups, captures⟩ := mid
      subst hrest
      exact hread
    · rw [if_pos hd] at hread
      cases hread
  · rintro ⟨body, mid, rest, hbody, hrest, hread⟩
    obtain ⟨cs, o, groups, captures⟩ := mid
    subst hrest
    refine bind_eq_some.2 ⟨(), _, rfl, bind_eq_some.2 ⟨body, _, hbody, ?_⟩⟩
    exact hread

/-! ## Patterns before different tails -/

/-- what a pattern before a tail is read as, if it is read up to the tail -/
def readBefore? (tail source : List Char) (ignoreCase : Bool) : Option Node :=
  match alternatives [] [] (source.length + 1) (.start (source ++ tail) ignoreCase) with
  | some (node, t) => if t.rest = tail then some node else none
  | none => none

/-- what a pattern on its own is read as -/
abbrev read? (source : List Char) (ignoreCase : Bool) : Option Node := readBefore? [] source ignoreCase

/-- a closing bracket right behind the pattern is no part of it -/
def Closed (source : List Char) (ignoreCase : Bool) : Prop := (readBefore? [')'] source ignoreCase).isSome

variable {source tail old new : List Char} {node : Node}

theorem readBefore?_eq_some : readBefore? tail source ignoreCase = some node ↔ ∃ t : State, t.rest = [] ∧
    alternatives [] [] (source.length + 1) ((State.start source ignoreCase).onto tail) = some (node, t.onto tail) := by
  unfold readBefore?
  have hstart : State.start (source ++ tail) ignoreCase = (State.start source ignoreCase).onto tail := rfl
  rw [hstart]
  constructor
  · intro hread
    cases halternatives : alternatives [] [] (source.length + 1) ((State.start source ignoreCase).onto tail) with
    | none =>
      rw [halternatives] at hread
      cases hread
    | some r =>
      obtain ⟨node', rest, o, groups, captures⟩ := r
      rw [halternatives] at hread
      dsimp only at hread
      split_ifs at hread with hrest
      obtain rfl := Option.some.inj hread
      refine ⟨⟨[], o, groups, captures⟩, rfl, ?_⟩
      rw [hrest]
      rfl
  · rintro ⟨t, ht, hread⟩
    rw [hread]
    dsimp only
    rw [State.onto, ht, List.nil_append, if_pos rfl]

theorem State.onto_nil (s : State) : s.onto [] = s := by
  rw [onto, List.append_nil]

/-- what is read up to one tail is read up to another one -/
theorem alternatives_of_tails (h : Tails old new) (hquiet : Quiet old source) {m : Nat} {t : State}
    (hread : alternatives [] [] n ((State.start source ignoreCase).onto old) = some (node, t.onto old))
    (hm : source.length < m) :
    alternatives [] [] m ((State.start source ignoreCase).onto new) = some (node, t.onto new) :=
  ((alike_alternatives h [] [] n m).same List.nil_prefix hm hquiet (Nat.zero_le _) hread).resolve_right id

theorem readBefore?_of_tails (h : Tails old new) (hquiet : Quiet old source)
    (hread : readBefore? old source ignoreCase = some node) : readBefore? new source ignoreCase = some node := by
  obtain ⟨t, ht, hread⟩ := readBefore?_eq_some.1 hread
  exact readBefore?_eq_some.2 ⟨t, ht, alternatives_of_tails h hquiet hread (Nat.lt_succ_self _)⟩

/-- a pattern without comments is closed -/
theorem closed_of_read? (hread : read? source ignoreCase = some node) (hmark : '#' ∉ source) :
    Closed source ignoreCase := by
  rw [Closed, readBefore?_of_tails ⟨isTail_nil, isTail_bracket _⟩ (fun _ => hmark) hread]
  rfl

/-- Of a pattern that can be read on its own nothing is read up to a closing bracket inside it. -/
theorem not_closed_front {front back : List Char} (hread : read? (front ++ ')' :: back) ignoreCase = some node) :
    ¬ Closed front ignoreCase := by
  intro hclosed
  obtain ⟨body, hbody⟩ := Option.isSome_iff_exists.1 hclosed
  obtain ⟨t, ht, hbody⟩ := readBefore?_eq_some.1 hbody
  obtain ⟨t', ht', hread⟩ := readBefore?_eq_some.1 hread
  have hlength : front.length < (front ++ ')' :: back).length + 1 := by
    rw [List.length_append]
    omega
  have hfront := alternatives_of_tails ⟨isTail_bracket _, isTail_bracket back⟩
    quiet_bracket hbody hlength
  have hstart : (State.start (front ++ ')' :: back) ignoreCase).onto [] =
      (State.start front ignoreCase).onto (')' :: back) := by
    rw [State.onto, State.start, List.append_nil]
    rfl
  rw [hstart, hfront] at hread
  have hrest := congrArg (fun r => r.2.rest) (Option.some.inj hread)
  simp [State.onto, ht, ht'] at hrest

/-! ## The pattern between the tests for start and end -/

theorem toList_anchored (source : String) :
    (anchored source).toList = '^' :: '(' :: '?' :: ':' :: (source.toList ++ [')', '$']) := by
  rw [anchored, String.toList_append, String.toList_append]
  rfl

/-- the pattern is read as a group between the two tests -/
theorem alternatives_anchored (source : String) :
    alternatives [] [] ((anchored source).toList.length + 1) (.start (anchored source).toList ignoreCase) =
      groupOnward [] [⟨Node.leaf (.look .textStart), true⟩] (source.toList.length + 5) { ignoreCase } { ignoreCase }
        none (.start (source.toList ++ [')', '$']) ignoreCase) := by
  have hlength : (anchored source).toList.length = source.toList.length + 6 := by
    rw [toList_anchored]
    simp
  rw [hlength, toList_anchored, State.start, alternatives_textStart, alternatives_group]
  rfl

/-- the pattern that is put between the tests is read up to the bracket after it, or up to a bracket inside it -/
theorem exists_of_read?_anchored {source : String} (hread : read? (anchored source).toList ignoreCase = some node) :
    ∃ front rest, source.toList ++ [')'] = front ++ ')' :: rest ∧ Closed front ignoreCase := by
  obtain ⟨t, -, hread⟩ := readBefore?_eq_some.1 hread
  rw [State.onto_nil, alternatives_anchored] at hread
  obtain ⟨body, ⟨_, o, groups, captures⟩, rest, hbody, rfl, -⟩ := groupOnward_eq_some.1 hread
  have hends : Tails [')'] [')'] := ⟨isTail_bracket _, isTail_bracket _⟩
  obtain ⟨front, hfront⟩ := ((alike_alternatives hends [] [] _ 0).moves List.nil_prefix hbody).1
  have hstart : State.start (source.toList ++ [')', '$']) ignoreCase =
      (State.start front ignoreCase).onto (')' :: rest) := by
    rw [State.onto, State.start]
    exact congrArg (fun cs => State.mk cs _ _ _) hfront.symm
  have hclosed : readBefore? [')'] front ignoreCase = some body := by
    rw [hstart] at hbody
    refine readBefore?_eq_some.2 ⟨⟨[], o, groups, captures⟩, rfl, ?_⟩
    exact alternatives_of_tails ⟨isTail_bracket _, isTail_bracket _⟩ quiet_bracket hbody
      (Nat.lt_succ_self _)
  -- the test for the end of the text is behind that bracket
  rcases List.eq_nil_or_concat rest with rfl | ⟨rest, c, rfl⟩
  · have hlast := congrArg List.getLast? hfront
    simp [State.start] at hlast
  · refine ⟨front, rest, ?_, by rw [Closed, hclosed]; rfl⟩
    have hsplit : (source.toList ++ [')']) ++ ['$'] = (front ++ ')' :: rest) ++ [c] := by
      simpa [State.start] using hfront.symm
    exact List.append_inj_left' hsplit rfl

theorem read?_anchored {source : String} (hbody : readBefore? [')'] source.toList ignoreCase = some node) :
    read? (anchored source).toList ignoreCase = some ⟨node.form.anchored, node.depth + 2⟩ := by
  obtain ⟨t, ht, hbody⟩ := readBefore?_eq_some.1 hbody
  have hends : Tails [')'] [')', '$'] := ⟨isTail_bracket _, isTail_bracket _⟩
  have hgroup : alternatives [] [] (source.toList.length + 5)
      ((State.start source.toList ignoreCase).onto [')', '$']) = some (node, t.onto [')', '$']) :=
    alternatives_of_tails hends quiet_bracket hbody (by omega)
  have hnode : Node.alternation (closeItems [⟨Node.leaf (.look .textEnd), true⟩, ⟨node.group none, true⟩,
      ⟨Node.leaf (.look .textStart), true⟩] :: []).reverse = ⟨node.form.anchored, node.depth + 2⟩ := by
    simp [Node.alternation, closeItems, Node.concat, Node.depthOfAll, Node.leaf, Node.group, Form.anchored]
  refine readBefore?_eq_some.2 ⟨⟨[], { ignoreCase }, t.groups, t.captures⟩, rfl, ?_⟩
  rw [State.onto_nil, alternatives_anchored]
  refine groupOnward_eq_some.2 ⟨node, _, ['$'], hgroup, ?_, ?_⟩
  · rw [State.onto, ht]
    rfl
  · rw [alternatives_textEnd, alternatives_end, hnode]
    rfl

/-- a pattern stands for the expression of its form, unless it nests too deep or takes up too much room -/
theorem parse?_eq_some {source : String} {e : Expr CodeSet Look} : parse? source ignoreCase = some e ↔
    ∃ node, read? source.toList ignoreCase = some node ∧ node.depth ≤ nestLimit ∧ node.form.hasRoom = true ∧
      node.form.expr = e := by
  have hparse : parse? source ignoreCase =
      (alternatives [] [] (source.toList.length + 1) (.start source.toList ignoreCase)).bind fun r =>
        if r.2.rest.isEmpty && r.1.depth ≤ nestLimit && r.1.form.hasRoom then some r.1.form.expr else none := by
    rw [String.length_toList]
    rfl
  rw [hparse]
  constructor
  · intro hread
    obtain ⟨⟨node, t⟩, halternatives, hread⟩ := Option.bind_eq_some_iff.1 hread
    dsimp only at hread
    split_ifs at hread with hfits
    obtain ⟨⟨hrest, hdepth⟩, hroom⟩ : (t.rest = [] ∧ node.depth ≤ nestLimit) ∧ node.form.hasRoom = true := by
      simpa using hfits
    refine ⟨node, readBefore?_eq_some.2 ⟨t, hrest, ?_⟩, hdepth, hroom, Option.some.inj hread⟩
    rw [State.onto_nil, State.onto_nil, halternatives]
  · rintro ⟨node, hread, hdepth, hroom, rfl⟩
    obtain ⟨t, ht, halternatives⟩ := readBefore?_eq_some.1 hread
    rw [State.onto_nil, State.onto_nil] at halternatives
    rw [halternatives, Option.bind_some, if_pos]
    simp [ht, hdepth, hroom]

/-- a pattern before a closing bracket can be put between the tests -/
theorem compile?_of_closed {source : String} {p : Pattern}
    (hbody : readBefore? [')'] source.toList ignoreCase = some node) :
    compile? source ignoreCase = some p ↔ (node.depth + 2 ≤ nestLimit ∧ node.form.anchored.hasRoom = true) ∧
      p = ⟨source, node.form.anchored.expr⟩ := by
  rw [compile?, Option.map_eq_some_iff]
  constructor
  · rintro ⟨e, hparse, rfl⟩
    obtain ⟨node', hread, hdepth, hroom, rfl⟩ := parse?_eq_some.1 hparse
    obtain rfl := Option.some.inj ((read?_anchored hbody).symm.trans hread)
    exact ⟨⟨hdepth, hroom⟩, rfl⟩
  · rintro ⟨⟨hdepth, hroom⟩, rfl⟩
    exact ⟨_, parse?_eq_some.2 ⟨_, read?_anchored hbody, hdepth, hroom, rfl⟩, rfl⟩

/-- Of a pattern that can be used, the front up to some closing bracket can be read on its own; that bracket is the one
after the pattern, or one inside it. -/
theorem exists_of_compile? {source : String} {p : Pattern} (hcompile : compile? source ignoreCase = some p) :
    Closed source.toList ignoreCase ∨
      ∃ front back, source.toList = front ++ ')' :: back ∧ Closed front ignoreCase := by
  obtain ⟨e, hparse, -⟩ := Option.map_eq_some_iff.1 hcompile
  obtain ⟨node, hread, -⟩ := parse?_eq_some.1 hparse
  obtain ⟨front, rest, hsplit, hclosed⟩ := exists_of_read?_anchored hread
  rcases List.eq_nil_or_concat rest with rfl | ⟨back, c, rfl⟩
  · left
    rwa [List.append_cancel_right hsplit]
  · refine Or.inr ⟨front, back, ?_, hclosed⟩
    have hsplit : source.toList ++ [')'] = (front ++ ')' :: back) ++ [c] := by
      simpa using hsplit
    exact List.append_inj_left' hsplit rfl

/-! ## Patterns that can be read on their own, and others -/

/-- a closed pattern can be read on its own, as the same -/
theorem read?_of_readBefore? {source : List Char} (hbody : readBefore? [')'] source ignoreCase = some node) :
    read? source ignoreCase = some node :=
  readBefore?_of_tails ⟨isTail_bracket _, isTail_nil⟩ quiet_bracket hbody

theorem readBefore?_of_closed {source : List Char} (hread : read? source ignoreCase = some node)
    (hclosed : Closed source ignoreCase) : readBefore? [')'] source ignoreCase = some node := by
  obtain ⟨body, hbody⟩ := Option.isSome_iff_exists.1 hclosed
  rwa [Option.some.inj (hread.symm.trans (read?_of_readBefore? hbody))]

theorem closed_of_compile? {source : String} {p : Pattern} (hread : read? source.toList ignoreCase = some node)
    (hcompile : compile? source ignoreCase = some p) : Closed source.toList ignoreCase := by
  refine (exists_of_compile? hcompile).resolve_right ?_
  rintro ⟨front, back, hsplit, hfront⟩
  rw [hsplit] at hread
  exact not_closed_front hread hfront

/-- a pattern that can be read on its own can be used if it is closed and there is room for the tests around it -/
theorem exists_compile?_iff {source : String} (hread : read? source.toList ignoreCase = some node) :
    (∃ p, compile? source ignoreCase = some p) ↔
      Closed source.toList ignoreCase ∧ node.depth + 2 ≤ nestLimit ∧ node.form.anchored.hasRoom = true := by
  constructor
  · rintro ⟨p, hcompile⟩
    have hclosed := closed_of_compile? hread hcompile
    exact ⟨hclosed, ((compile?_of_closed (readBefore?_of_closed hread hclosed)).1 hcompile).1⟩
  · rintro ⟨hclosed, hfits⟩
    exact ⟨_, (compile?_of_closed (readBefore?_of_closed hread hclosed)).2 ⟨hfits, rfl⟩⟩

/-- used so, it matches whole texts -/
theorem accepts_iff {source : String} {p : Pattern} (hread : read? source.toList ignoreCase = some node)
    (hcompile : compile? source ignoreCase = some p) (text : String) :
    p.accepts text = true ↔ node.form.expr.Spans text.toList 0 text.toList.length := by
  have hbody := readBefore?_of_closed hread (closed_of_compile? hread hcompile)
  obtain ⟨-, rfl⟩ := (compile?_of_closed hbody).1 hcompile
  exact Form.foundIn_anchored_iff node.form text.toList

theorem parse?_eq_none {source : String} (hread : read? source.toList ignoreCase = none) :
    parse? source ignoreCase = none := by
  rw [Option.eq_none_iff_forall_ne_some]
  intro e he
  obtain ⟨node, hnode, -⟩ := parse?_eq_some.1 he
  rw [hread] at hnode
  cases hnode

/-- a pattern that cannot be read on its own can be used only if a part before a closing bracket can be -/
theorem exists_bracket_of_compile? {source : String} {p : Pattern} (hread : read? source.toList ignoreCase = none)
    (hcompile : compile? source ignoreCase = some p) : ∃ front back, source.toList = front ++ ')' :: back ∧
      (read? front ignoreCase).isSome = true ∧ Closed front ignoreCase := by
  rcases exists_of_compile? hcompile with hclosed | ⟨front, back, hsplit, hfront⟩
  · obtain ⟨body, hbody⟩ := Option.isSome_iff_exists.1 hclosed
    rw [read?_of_readBefore? hbody] at hread
    cases hread
  · obtain ⟨body, hbody⟩ := Option.isSome_iff_exists.1 hfront
    refine ⟨front, back, hsplit, ?_, hfront⟩
    rw [read?_of_readBefore? hbody]
    rfl

end PixelAudit.Pattern
