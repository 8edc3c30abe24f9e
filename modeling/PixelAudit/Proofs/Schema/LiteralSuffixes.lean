/-
Literal suffixes and the names that spell them as they are declared.

A literal is put in lower case on its own when the matcher is compiled, and what follows the name of a family is put in
lower case as a whole before it is parted at the points. The two come to the same segments unless a capital sigma is
final in its segment and not in the whole, or the other way round. Literals are then refused as they are declared,
unless the segments from one that differs on, or from one before it, match common suffixes.

Main results: `compile_literals` (there is a matcher for any literals), `segments_written_iff` (when what is declared
and what follows come to the same segments), `compile_literals_takes_iff` (when the matcher takes the literals it was
made of).
-/
import PixelAudit.Proofs.Schema.SuffixSplit
import PixelAudit.Proofs.Tables
import PixelAudit.Proofs.Text.Folding
import Mathlib.Tactic

namespace PixelAudit

open Text (joined pieces SigmasAgree)

namespace SegmentMatcher

/-- what a literal is compiled to -/
def literal (key : String) : SegmentMatcher := oneOf key [Text.lower key]

theorem compile_literal (key : String) : compile (.literal key) = .ok (literal key) := rfl

theorem oneOf_accepts_iff {label segment : String} {names : List String} :
    (oneOf label names).accepts segment = true ↔ segment ∈ names := by
  rw [accepts, ValueCheck.accepts, Option.isNone_iff_eq_none, ValueCheck.unmet?_eq_none_iff, ← NameSet.contains_ofList]
  simp [oneOf, ValueCheck.unmetAllowed?, ValueCheck.unmetPattern?, ValueCheck.unmetType?, ValueCheck.unmetBounds?]

/-- a literal takes its lower-case form only -/
theorem literal_accepts_iff {key segment : String} :
    (literal key).accepts segment = true ↔ segment = Text.lower key := by
  rw [literal, oneOf_accepts_iff, List.mem_singleton]

end SegmentMatcher

namespace SuffixesMatcher

variable {keys parts : List String} {common : List SegmentMatcher} {ctx : CompileContext} {k : Nat}

theorem compile_literals (hne : keys ≠ [])
    (hcommon : ctx.commonSuffixes.values.mapM SegmentMatcher.compile = .ok common) :
    compile (keys.map .literal) ctx = .ok (.positional (keys.map .literal) common) := by
  have hspecs : (keys.map SuffixSpec.literal).isEmpty = false := by simpa using hne
  have hdeclared : (keys.map SuffixSpec.literal).mapM SegmentMatcher.compile = .ok (keys.map .literal) := by
    have hliteral : SegmentMatcher.compile ∘ SuffixSpec.literal = pure ∘ SegmentMatcher.literal :=
      funext SegmentMatcher.compile_literal
    rw [List.mapM_map, hliteral]
    exact List.mapM_pure
  rw [compile, hspecs, hdeclared, hcommon]
  rfl

/-- the segments before the position fit the literals if they are these, in lower case -/
theorem forall_fitsAt_literal_iff (hk : k ≤ keys.length) :
    (∀ i < k, FitsAt (keys.map .literal) parts i) ↔ parts.take k = (keys.take k).map Text.lower := by
  have hfits : ∀ i < k, FitsAt (keys.map .literal) parts i ↔ parts[i]? = keys[i]?.map Text.lower := by
    intro i hi
    have hkey := List.getElem?_eq_getElem (hi.trans_le hk)
    simp [FitsAt, hkey, SegmentMatcher.literal_accepts_iff]
  constructor
  · intro h
    apply List.ext_getElem?
    intro i
    by_cases hi : i < k
    · rw [List.getElem?_take_of_lt hi, List.getElem?_map, List.getElem?_take_of_lt hi]
      exact (hfits i hi).1 (h i hi)
    · rw [List.getElem?_map, List.getElem?_take, List.getElem?_take, if_neg hi, if_neg hi, Option.map_none]
  · intro h i hi
    have hat := congrArg (fun l : List String => l[i]?) h
    rw [List.getElem?_take_of_lt hi, List.getElem?_map, List.getElem?_take_of_lt hi] at hat
    exact (hfits i hi).2 hat

/-- literals as they are declared, with points between them -/
def written (keys : List String) : String := joined '.' keys

/-- a segment of a name -/
def IsSegment (key : String) : Prop := key ≠ "" ∧ '.' ∉ key.toList

instance (key : String) : Decidable (IsSegment key) := inferInstanceAs (Decidable (_ ∧ _))

theorem pieces_written (hkeys : ∀ key ∈ keys, IsSegment key) (hne : keys ≠ []) : pieces '.' (written keys) = keys :=
  Text.pieces_joined '.' keys (fun key hkey => (hkeys key hkey).2) hne

theorem length_segments_written (hkeys : ∀ key ∈ keys, IsSegment key) (hne : keys ≠ []) :
    (segments (written keys)).length = keys.length := by
  rw [segments, Text.length_pieces_lower, pieces_written hkeys hne]

/-- What is declared and what follows come to the same segments exactly if the capital sigmas agree. -/
theorem segments_written_iff (hkeys : ∀ key ∈ keys, IsSegment key) (hne : keys ≠ []) :
    segments (written keys) = keys.map Text.lower ↔ SigmasAgree (written keys) := by
  rw [← Text.pieces_lower_iff, pieces_written hkeys hne, segments]

theorem written_ne_empty (hkeys : ∀ key ∈ keys, IsSegment key) (hne : keys ≠ []) : written keys ≠ "" := by
  intro h
  have hpieces := pieces_written hkeys hne
  rw [h] at hpieces
  have hempty : "" ∈ keys := by
    rw [← hpieces]
    exact List.mem_singleton_self _
  exact (hkeys "" hempty).1 rfl

/-- The literals before a place are taken if their capital sigmas agree, or if what differs matches common suffixes. -/
theorem accepts_written_iff {m : Nat} (hkeys : ∀ key ∈ keys, IsSegment key) (hm : m ≤ keys.length) :
    (positional (keys.map .literal) common).accepts (written (keys.take m)) = true ↔
      SigmasAgree (written (keys.take m)) ∨ ∃ k < m,
        (segments (written (keys.take m))).take k = (keys.take k).map Text.lower ∧
          CommonFrom common (segments (written (keys.take m))) k := by
  rcases Nat.eq_zero_or_pos m with rfl | hpos
  · exact iff_of_true rfl (.inl (Text.sigmasAgree_of_not_mem (by rw [List.take_zero]; decide)))
  have htake : ∀ key ∈ keys.take m, IsSegment key := fun key hkey => hkeys key (List.mem_of_mem_take hkey)
  have hne : keys.take m ≠ [] := by
    rw [ne_eq, List.take_eq_nil_iff, ← List.length_eq_zero_iff]
    omega
  have hlength := length_segments_written htake hne
  rw [List.length_take_of_le hm] at hlength
  rw [accepts_positional_iff (written_ne_empty htake hne), ← segments_written_iff htake hne]
  generalize segments (written (keys.take m)) = parts at hlength ⊢
  constructor
  · rintro ⟨k, hle, hfits, hrest⟩
    rw [List.length_map] at hle
    have hparts := (forall_fitsAt_literal_iff hle).1 hfits
    have hkm : k ≤ m := by
      have hlengths := congrArg List.length hparts
      rw [List.length_take, List.length_map, List.length_take_of_le hle] at hlengths
      omega
    rcases hkm.eq_or_lt with rfl | hlt
    · rw [List.take_of_length_le hlength.le] at hparts
      exact .inl hparts
    · exact .inr ⟨k, hlt, hparts, hrest⟩
  · rintro (hparts | ⟨k, hlt, hparts, hrest⟩)
    · refine ⟨m, by rwa [List.length_map], (forall_fitsAt_literal_iff hm).2 ?_, ?_⟩
      · rwa [List.take_of_length_le hlength.le]
      · exact hlength ▸ commonFrom_length common parts
    · have hle := hlt.le.trans hm
      exact ⟨k, by rwa [List.length_map], (forall_fitsAt_literal_iff hle).2 hparts, hrest⟩

/-- **When literals take themselves.** Literals compile, whatever the common suffixes are. The first of them, written as
they are declared, are accepted if and only if each of their capital sigmas is final in its segment exactly if it is
final in the whole, or the segments from some place on match common suffixes and those before it do not differ. -/
theorem compile_literals_takes_iff (keys : List String) (ctx : CompileContext) {common : List SegmentMatcher}
    (hne : keys ≠ []) (hkeys : ∀ key ∈ keys, IsSegment key)
    (hcommon : ctx.commonSuffixes.values.mapM SegmentMatcher.compile = .ok common) :
    ∃ matcher, compile (keys.map .literal) ctx = .ok matcher ∧ ∀ m ≤ keys.length,
      (matcher.accepts (written (keys.take m)) = true ↔
        SigmasAgree (written (keys.take m)) ∨ ∃ k < m,
          (segments (written (keys.take m))).take k = (keys.take k).map Text.lower ∧
            CommonFrom common (segments (written (keys.take m))) k) :=
  ⟨_, compile_literals hne hcommon, fun _ hm => accepts_written_iff hkeys hm⟩

/-- common suffixes of which one is a literal -/
def literalContext : CompileContext := { commonSuffixes := Dict.ofList [("u", .literal "u")] }

/-- literals without capital sigmas take themselves, all of them or the first only, in the case they are declared in -/
theorem compile_literals_takes_phone :
    ∃ matcher, compile (["Phone", "daily"].map .literal) literalContext = .ok matcher ∧
      matcher.accepts "Phone" = true ∧ matcher.accepts "Phone.daily" = true := by
  have hcommon : literalContext.commonSuffixes.values.mapM SegmentMatcher.compile = .ok [.literal "u"] := rfl
  obtain ⟨matcher, hcompile, htakes⟩ :=
    compile_literals_takes_iff ["Phone", "daily"] literalContext (by decide) (by decide) hcommon
  have hone := (htakes 1 (by decide)).2 (.inl (Text.sigmasAgree_of_not_mem (by decide)))
  have hall := (htakes 2 (by decide)).2 (.inl (Text.sigmasAgree_of_not_mem (by decide)))
  exact ⟨matcher, hcompile, hone, hall⟩

/-- a capital sigma at the end of a literal is not at the end of what follows: the two literals together are refused -/
theorem compile_literals_refuses_sigma :
    ∃ matcher, compile (["aΣ", "a"].map .literal) {} = .ok matcher ∧
      written ["aΣ", "a"] = "aΣ.a" ∧ matcher.accepts "aΣ.a" = false := by
  have hkeys : ∀ key ∈ ["aΣ", "a"], IsSegment key := by decide
  have hwritten : written ["aΣ", "a"] = "aΣ.a" := by decide
  have hcommon : (CompileContext.commonSuffixes {}).values.mapM SegmentMatcher.compile = .ok [] := rfl
  refine ⟨_, compile_literals (by decide) hcommon, hwritten, ?_⟩
  rw [← Bool.not_eq_true, ← hwritten]
  intro haccepts
  rcases (accepts_written_iff hkeys le_rfl).1 haccepts with hagree | ⟨k, hk, -, hrest⟩
  · rw [List.take_length, hwritten] at hagree
    exact Text.not_sigmasAgree_across_point hagree
  · rw [List.take_length] at hrest
    have hlength := length_segments_written hkeys (by decide)
    exact absurd (hlength ▸ hrest.length_le) (Nat.not_le.2 hk)

end SuffixesMatcher

end PixelAudit
