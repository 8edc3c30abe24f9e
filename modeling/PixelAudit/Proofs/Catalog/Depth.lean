/-
Which stored catalogs can be loaded.

Writing a tree takes any depth, reading has room for a fixed number of nested arrays and objects. Every segment of a
name takes two levels of the stored text, the object of the children and the object of the child, and the definition at
the end takes some more. So it is the longest names that decide: the induction over the tree finds the depth of its text
from the paths to its definitions.

Main results: `Node.gauges_toJson` (a stored tree is read exactly if there is room for it), `Node.nesting_le_iff` (the
room is that of its deepest definition), `Catalog.stored_loads_iff` (a catalog is loaded from its stored text exactly
if no family stands too deep in it).
-/
import PixelAudit.Proofs.Catalog.Reload
import PixelAudit.Proofs.Definition.Depth
import Mathlib.Tactic

namespace PixelAudit

open Json.Reader (TooDeep)

namespace Node

/-! ## Reading a tree -/

/-- the value of the children, which are left out if there are none -/
def childrenJson (children : List (String × Node)) : Option Json :=
  if children.isEmpty then none else some (.object (toJsonList children))

theorem toJson_eq (n : Node) :
    n.toJson = .object (optionalMember "children" id (childrenJson n.children) ++
      optionalMember "definition" PixelDefinition.toJson n.definition ++ optionalMember "origin" .string n.origin) := by
  obtain ⟨children, definition, origin⟩ := n
  cases children <;> rfl

open Form in
/-- a stored tree is read exactly if there is room for it -/
theorem gauges_toJson (n : Node) (depth : Nat) : (decoder depth).Gauges depth n.toJson := by
  induction n using induct generalizing depth with
  | h n ih =>
    cases depth with
    | zero =>
      rw [toJson_eq]
      exact ⟨fun hroom => absurd hroom (Nat.not_succ_le_zero _), fun _ _ _ _ _ _ _ _ => TooDeep.failAhead _⟩
    | succ depth =>
      have hchildren : Form.Gauges depth (Field.of "children" (.table (decoder depth)) fun v (m : Node) =>
          { m with children := v.entries }) (childrenJson n.children) := by
        unfold childrenJson
        split_ifs
        · rfl
        · have htable : (Decoder.table (decoder depth)).Gauges depth (.object (toJsonList n.children)) := by
            refine Decoder.Gauges.table ?_
            rw [toJsonList_eq, List.forall_mem_map]
            intro c hc
            exact (ih c hc depth).mono (Nat.sub_le _ _)
          exact htable.map _
      have hdefinition : ∀ d ∈ n.definition, PixelDefinition.decoder.Gauges depth d.toJson := fun d _ =>
        d.gauges_toJson depth
      have hfields : List.Forall₂ (Form.Gauges (depth + 1 - 1)) (form (decoder depth)).fields _ :=
        .cons hchildren <| .cons (gauges_optional hdefinition fun _ _ => rfl) <| .cons (gauges_text n.origin) .nil
      rw [toJson_eq]
      refine gauges_members (allNames_nodup _) hfields ?_
      simp only [form, membersOf_cons, membersOf, optionalMember_map, Field.of, List.append_assoc, List.append_nil]

/-! ## The depth of a tree -/

theorem one_le_nesting (n : Node) : 1 ≤ n.toJson.nesting := by
  rw [toJson_eq]
  exact Nat.succ_le_succ (Nat.zero_le _)

/-- the room for a tree is that for its children and its definition -/
theorem nesting_le_succ_iff (n : Node) (room : Nat) :
    n.toJson.nesting ≤ room + 1 ↔ (∀ c ∈ n.children, c.2.toJson.nesting + 1 ≤ room) ∧
      ∀ d ∈ n.definition, d.toJson.nesting ≤ room := by
  have hchildren : (∀ j ∈ childrenJson n.children, j.nesting ≤ room) ↔
      ∀ c ∈ n.children, c.2.toJson.nesting + 1 ≤ room := by
    unfold childrenJson
    cases hempty : n.children with
    | nil => simp
    | cons c cs =>
      have hroom : Json.nestingMembers (toJsonList (c :: cs)) + 1 ≤ room ↔
          ∀ e ∈ c :: cs, e.2.toJson.nesting + 1 ≤ room := by
        cases room with
        | zero =>
          exact ⟨fun h => absurd h (Nat.not_succ_le_zero _),
            fun h => absurd (h c List.mem_cons_self) (Nat.not_succ_le_zero _)⟩
        | succ room => simp only [Nat.succ_le_succ_iff, Json.nestingMembers_le_iff, toJsonList_eq, List.forall_mem_map]
      rw [List.isEmpty_cons, if_neg Bool.false_ne_true]
      simp only [Option.mem_def, Option.some.injEq, forall_eq', Json.nesting]
      exact hroom
  rw [toJson_eq, Json.nesting, Nat.succ_le_succ_iff, Json.nestingMembers_le_iff]
  simp only [List.forall_mem_append, forall_optionalMember, id, hchildren]
  simp [Json.nesting]

/-- no definition stands too deep for the room: two levels for each segment on the way, and the tree itself -/
def FitsIn (n : Node) (room : Nat) : Prop :=
  ∀ path d, n.definition? path = some d → 2 * path.length + 1 + d.toJson.nesting ≤ room

/-- every node below the root leads to a definition -/
def Reached (n : Node) : Prop :=
  ∀ path, path ≠ [] → (n.find? path).isSome → ∃ rest d, n.definition? (path ++ rest) = some d

section children

variable {n : Node} {c : String × Node}

theorem Ordered.definition?_of_mem (h : n.Ordered) (hc : c ∈ n.children) (path : List String) :
    n.definition? (c.1 :: path) = c.2.definition? path := by
  rw [definition?_cons, h.child?_of_mem hc, Option.bind_some]

theorem Reached.child (hordered : n.Ordered) (h : n.Reached) (hc : c ∈ n.children) : c.2.Reached := by
  intro path _ hfound
  obtain ⟨rest, d, hd⟩ := h (c.1 :: path) (List.cons_ne_nil _ _) (by rwa [hordered.find?_cons_of_mem hc])
  rw [List.cons_append, hordered.definition?_of_mem hc] at hd
  exact ⟨rest, d, hd⟩

/-- a child is there for a definition at it or below it -/
theorem Reached.exists_definition (hordered : n.Ordered) (h : n.Reached) (hc : c ∈ n.children) :
    ∃ path d, c.2.definition? path = some d := by
  have hfound : (n.find? [c.1]).isSome := by
    rw [hordered.find?_cons_of_mem hc]
    rfl
  obtain ⟨path, d, hd⟩ := h [c.1] (List.cons_ne_nil _ _) hfound
  rw [List.singleton_append, hordered.definition?_of_mem hc] at hd
  exact ⟨path, d, hd⟩

end children

/-- definitions fit into the room of a tree if those of the children do, with two levels less -/
theorem fitsIn_iff {n : Node} (hordered : n.Ordered) {room : Nat} :
    n.FitsIn (room + 1) ↔ (∀ c ∈ n.children, c.2.FitsIn (room - 1)) ∧ ∀ d ∈ n.definition, d.toJson.nesting ≤ room := by
  constructor
  · intro h
    refine ⟨fun c hc path d hd => ?_, fun d hd => ?_⟩
    · have hroom := h (c.1 :: path) d (by rwa [hordered.definition?_of_mem hc])
      rw [List.length_cons] at hroom
      omega
    · have hroom := h [] d hd
      rw [List.length_nil] at hroom
      omega
  · rintro ⟨hchildren, hdefinition⟩ path d hd
    cases path with
    | nil =>
      have hroom := hdefinition d hd
      rw [List.length_nil]
      omega
    | cons segment path =>
      rw [definition?_cons] at hd
      obtain ⟨child, hchild, hd⟩ := Option.bind_eq_some_iff.1 hd
      have hroom := hchildren (segment, child) (mem_of_child? hchild) path d hd
      rw [List.length_cons]
      omega

/-- the room that a tree takes is that of its deepest definition -/
theorem nesting_le_iff {n : Node} (hordered : n.Ordered) (hreached : n.Reached) {room : Nat} :
    n.toJson.nesting ≤ room ↔ 1 ≤ room ∧ n.FitsIn room := by
  induction n using induct generalizing room with
  | h n ih =>
    cases room with
    | zero =>
      have hone := n.one_le_nesting
      omega
    | succ room =>
      have hchild : ∀ c ∈ n.children, (c.2.toJson.nesting + 1 ≤ room ↔ c.2.FitsIn (room - 1)) := by
        intro c hc
        have hone := c.2.one_le_nesting
        obtain ⟨path, d, hd⟩ := hreached.exists_definition hordered hc
        have hiff := @ih c hc (hordered.child hc) (hreached.child hordered hc) (room - 1)
        constructor
        · exact fun hroom => (hiff.1 (by omega)).2
        · intro hfits
          have hroom := hfits path d hd
          have hnesting := hiff.2 ⟨by omega, hfits⟩
          omega
      rw [nesting_le_succ_iff, fitsIn_iff hordered]
      simp only [Nat.succ_le_succ_iff, Nat.zero_le, true_and]
      exact and_congr_left' (forall₂_congr hchild)

/-- in the tree of a table, the definitions stand at the ends of the names -/
theorem Holds.fitsIn_iff {n : Node} {declared : Dict PixelDefinition} (h : n.Holds declared) (room : Nat) :
    n.FitsIn room ↔ ∀ name d, declared.find? name = some d →
      2 * (Text.pieces '.' name).length + 1 + d.toJson.nesting ≤ room := by
  constructor
  · intro hfits name d hd
    exact hfits _ d ((h.named name).trans hd)
  · intro hnames path d hd
    obtain ⟨name, rfl⟩ := h.placed path d hd
    exact hnames name d ((h.named name).symm.trans hd)

end Node

namespace Catalog

/-- a family has room in a stored catalog: two levels for each segment of its name, those of its definition, and two for
the tree and the artifact -/
def HasRoom (name : String) (d : PixelDefinition) : Prop :=
  2 * (Text.pieces '.' name).length + d.toJson.nesting + 2 ≤ Json.maxDepth

instance (name : String) (d : PixelDefinition) : Decidable (HasRoom name d) :=
  inferInstanceAs (Decidable (_ ≤ _))

/-- sixty segments have room whatever the definition is -/
theorem hasRoom_of_length_le {name : String} (d : PixelDefinition) (h : (Text.pieces '.' name).length ≤ 60) :
    HasRoom name d := by
  have hnesting := d.nesting_le_five
  have hmax : Json.maxDepth = 127 := rfl
  unfold HasRoom
  omega

/-- sixty-two segments have no room whatever the definition is -/
theorem not_hasRoom_of_le_length {name : String} (d : PixelDefinition) (h : 62 ≤ (Text.pieces '.' name).length) :
    ¬ HasRoom name d := by
  have hnesting := d.two_le_nesting
  have hmax : Json.maxDepth = 127 := rfl
  unfold HasRoom
  omega

end Catalog

/-- a tree has room in an artifact if its families have -/
theorem Node.Holds.nesting_lt_iff {n : Node} {declared : Dict PixelDefinition} (h : n.Holds declared) :
    n.toJson.nesting < Json.maxDepth ↔ ∀ name d, declared.find? name = some d → Catalog.HasRoom name d := by
  have hnesting := @Node.nesting_le_iff n h.ordered h.reached (Json.maxDepth - 1)
  rw [h.fitsIn_iff, and_iff_right (by decide)] at hnesting
  rw [← Nat.le_sub_one_iff_lt (by decide), hnesting]
  refine forall₂_congr fun name d => imp_congr_right fun _ => ?_
  have hmax : Json.maxDepth = 127 := rfl
  unfold Catalog.HasRoom
  omega

/-! ## Reading an artifact -/

namespace Artifact

/-- the text is read as an artifact in the present format -/
def Loads (text : String) : Prop := ∃ root, ofText text = .ok (new root)

/-- the text is refused for the depth of what it spells -/
def RefusedForDepth (text : String) : Prop :=
  ∃ place, ofText text = .error (.artifact (.unreadable ⟨.tooDeep, place⟩))

theorem Loads.not_refused {text : String} (h : Loads text) : ¬ RefusedForDepth text := by
  rintro ⟨place, hplace⟩
  obtain ⟨root, hroot⟩ := h
  cases hroot.symm.trans hplace

variable {n : Node}

/-- a stored tree is loaded if there is room for it -/
theorem loads_text (hroom : n.toJson.nesting < Json.maxDepth) : Loads (new n).text := by
  obtain ⟨m, hm⟩ := (Node.gauges_toJson n (Json.maxDepth + 1)).reads (hroom.le.trans (Nat.le_succ _))
  exact ⟨m, ofText_of_reads hm (by rw [nesting_new]; exact Nat.succ_lt_succ hroom)⟩

/-- a stored tree is refused for its depth if there is no room for it -/
theorem refused_text (hdeep : Json.maxDepth ≤ n.toJson.nesting) : RefusedForDepth (new n).text := by
  have htrie : (Node.decoder (Json.maxDepth + 1)).Gauges (Json.maxDepth - 1) n.toJson :=
    (Node.gauges_toJson n (Json.maxDepth + 1)).mono (by decide)
  have hfields : List.Forall₂ (Form.Gauges (Json.maxDepth - 1)) form.fields
      [some (.integer (artifactFormat : Nat)), some n.toJson] :=
    .cons ((reads_format.gauges rfl).map _) (.cons (htrie.map _) .nil)
  have hgauges : form.decoder.Gauges Json.maxDepth (new n).toJson := Form.gauges_members (by decide) hfields rfl
  obtain ⟨place, hplace⟩ := hgauges.parse (by rw [nesting_new]; exact Nat.lt_succ_of_le hdeep)
  exact ⟨place, by rw [ofText, text, hplace]⟩

theorem loads_text_iff : Loads (new n).text ↔ n.toJson.nesting < Json.maxDepth :=
  ⟨fun hloads => not_le.1 fun hdeep => hloads.not_refused (refused_text hdeep), loads_text⟩

end Artifact

namespace Catalog

open Artifact (Loads RefusedForDepth)

/-- A catalog is loaded from its stored text exactly if every family has room in it, and else the text is refused for
its depth. Names of up to sixty segments always have room, and a name of sixty-two never has. -/
theorem stored_loads_iff (commonParams : ParamCatalog) (commonSuffixes : SuffixCatalog) (sources : List Source) :
    let stored := (Artifact.new ((new commonParams commonSuffixes).addSources sources).root).text
    let families := declared commonParams commonSuffixes sources
    (Loads stored ↔ ∀ name d, families.find? name = some d → HasRoom name d) ∧
      (Loads stored ∨ RefusedForDepth stored) ∧
      ((∀ name, families.contains name = true → (Text.pieces '.' name).length ≤ 60) → Loads stored) ∧
      ∀ name, families.contains name = true → 62 ≤ (Text.pieces '.' name).length → RefusedForDepth stored := by
  intro stored families
  have hiff : Loads stored ↔ ∀ name d, families.find? name = some d → HasRoom name d :=
    Artifact.loads_text_iff.trans (addSources_holds commonParams commonSuffixes sources).nesting_lt_iff
  have hone : Loads stored ∨ RefusedForDepth stored :=
    (Nat.lt_or_ge _ _).imp Artifact.loads_text Artifact.refused_text
  refine ⟨hiff, hone, fun hshort => ?_, fun name hname hlong => ?_⟩
  · exact hiff.2 fun name d hd => hasRoom_of_length_le d (hshort name (Option.isSome_of_eq_some hd))
  · obtain ⟨d, hd⟩ := Option.isSome_iff_exists.1 hname
    exact hone.resolve_left fun hloads => not_hasRoom_of_le_length d hlong (hiff.1 hloads name d hd)

/-- a name of so many segments -/
def segmented (n : Nat) : String := ".".intercalate (List.replicate n "a")

/-- the greatest depth: sixty-one segments, and a parameter that is written out -/
theorem stored_loads_sixty_one :
    let commonParams : ParamCatalog := Dict.ofList [("n", { minimum := some tenAndHalf })]
    let sources : List Source := [⟨"defs.json", .object [(segmented 61, .object [
      ("owners", .array [.string "t"]), ("parameters", .array [.string "n"])])]⟩]
    ((new commonParams ∅).addSources sources).root.bounds = [tenAndHalf] ∧
      ((new commonParams ∅).addSources sources).root.toJson.nesting + 1 = Json.maxDepth ∧
      Loads (Artifact.new ((new commonParams ∅).addSources sources).root).text := by
  intro commonParams sources
  obtain ⟨hbounds, hdepth, hroom⟩ : ((new commonParams ∅).addSources sources).root.bounds = [tenAndHalf] ∧
      ((new commonParams ∅).addSources sources).root.toJson.nesting + 1 = Json.maxDepth ∧
      ∀ e ∈ (declared commonParams ∅ sources).entries, HasRoom e.1 e.2 := by decide +kernel
  refine ⟨hbounds, hdepth, ?_⟩
  exact (stored_loads_iff commonParams ∅ sources).1.2 fun name d hd =>
    hroom (name, d) ((Dict.find?_eq_some_iff _).1 hd)

/-- a family of sixty-two segments is accepted, and the catalog compiles, but it cannot be loaded from its text -/
theorem deep_name_refused :
    let records : Json := .object [(segmented 62, .object [("owners", .array [.string "t"])])]
    let c := ((new ∅ ∅).addSource "defs.json" records).1
    ((new ∅ ∅).addSource "defs.json" records).2 = .ok 1 ∧ (CompiledCatalog.build c.root {}).isOk = true ∧
      RefusedForDepth (Artifact.new c.root).text := by
  intro records c
  obtain ⟨htaken, hbuilt, hdeep⟩ : ((new ∅ ∅).addSource "defs.json" records).2 = .ok 1 ∧
      (CompiledCatalog.build c.root {}).isOk = true ∧ Json.maxDepth ≤ c.root.toJson.nesting := by decide +kernel
  exact ⟨htaken, hbuilt, Artifact.refused_text hdeep⟩

end Catalog

end PixelAudit
