/-
A tree of families is read back from the object that it is stored as.

`storable` is what comes back: the same segments, sources and definitions, but for the bounds that are not finite. The
induction is over the tree; the children of a node stand in a table, and a table is read in the order of its names, in
which they stand already.

Main results: `reads_toJson` (a stored tree is read as what is storable of it), `storable_eq_iff` (that is the whole
tree if every bound in it is finite).
-/
import PixelAudit.Catalog.Artifact
import PixelAudit.Proofs.Catalog.Tree
import PixelAudit.Proofs.Definition.Stored
import Mathlib.Tactic

namespace PixelAudit

open Decimal (Binary64)
open Decoder (ReadsBack)

namespace Node

mutual

/-- the bounds of all definitions of a tree -/
def bounds : Node → List Binary64
  | ⟨children, definition, _⟩ => definition.toList.flatMap PixelDefinition.bounds ++ boundsList children

def boundsList : List (String × Node) → List Binary64
  | [] => []
  | (_, child) :: rest => child.bounds ++ boundsList rest

end

mutual

/-- what comes back of a stored tree -/
def storable : Node → Node
  | ⟨children, definition, origin⟩ => ⟨storableList children, definition.map PixelDefinition.storable, origin⟩

def storableList : List (String × Node) → List (String × Node)
  | [] => []
  | (segment, child) :: rest => (segment, child.storable) :: storableList rest

end

theorem mem_boundsList {children : List (String × Node)} {x : Binary64} :
    x ∈ boundsList children ↔ ∃ c ∈ children, x ∈ c.2.bounds := by
  induction children with
  | nil => simp [boundsList]
  | cons c cs ih => simp [boundsList, ih]

theorem mem_bounds {n : Node} {x : Binary64} :
    x ∈ n.bounds ↔ (∃ d ∈ n.definition, x ∈ d.bounds) ∨ ∃ c ∈ n.children, x ∈ c.2.bounds := by
  obtain ⟨children, definition, origin⟩ := n
  simp [bounds, mem_boundsList]

theorem storableList_eq (children : List (String × Node)) :
    storableList children = children.map fun c => (c.1, c.2.storable) := by
  induction children with
  | nil => rfl
  | cons c cs ih => simp [storableList, ih]

theorem toJsonList_eq (children : List (String × Node)) :
    toJsonList children = children.map fun c => (c.1, c.2.toJson) := by
  induction children with
  | nil => rfl
  | cons c cs ih => simp [toJsonList, ih]

/-- a tree comes back as a whole if every bound in it is finite -/
theorem storable_eq_iff (n : Node) : n.storable = n ↔ ∀ x ∈ n.bounds, x.isFinite = true := by
  induction n using induct with
  | h n ih =>
    obtain ⟨children, definition, origin⟩ := n
    have hdefinition : definition.map PixelDefinition.storable = definition ↔
        ∀ d ∈ definition, ∀ x ∈ d.bounds, x.isFinite = true := by
      cases definition with
      | none => simp
      | some d => simp [PixelDefinition.storable_eq_iff]
    have hchildren : storableList children = children ↔ ∀ c ∈ children, ∀ x ∈ c.2.bounds, x.isFinite = true := by
      have hmap : storableList children = children ↔
          children.map (fun c => (c.1, c.2.storable)) = children.map id := by rw [List.map_id, storableList_eq]
      rw [hmap, List.map_inj_left]
      exact forall₂_congr fun c hc => Iff.trans (by simp [Prod.ext_iff]) (ih c hc)
    simp only [storable, mk.injEq, and_true, hdefinition, hchildren]
    constructor
    · rintro ⟨hc, hd⟩ x hx
      rcases mem_bounds.1 hx with ⟨d, hdef, hx⟩ | ⟨c, hchild, hx⟩
      · exact hd d hdef x hx
      · exact hc c hchild x hx
    · exact fun h => ⟨fun c hc x hx => h x (mem_bounds.2 (Or.inr ⟨c, hc, hx⟩)),
        fun d hd x hx => h x (mem_bounds.2 (Or.inl ⟨d, hd, hx⟩))⟩

/-- the children of a node stand in an object of their own -/
theorem nesting_child {n : Node} {c : String × Node} (hc : c ∈ n.children) :
    c.2.toJson.nesting + 2 ≤ n.toJson.nesting := by
  obtain ⟨children, definition, origin⟩ := n
  have hmem : (c.1, c.2.toJson) ∈ toJsonList children := by
    rw [toJsonList_eq]
    exact List.mem_map.2 ⟨c, hc, rfl⟩
  have hobject : ("children", Json.object (toJsonList children)) ∈
      (if children.isEmpty then [] else [("children", Json.object (toJsonList children))]) ++
        optionalMember "definition" PixelDefinition.toJson definition ++
        optionalMember "origin" Json.string origin := by
    rw [if_neg (by simpa using List.ne_nil_of_mem hc)]
    exact List.mem_cons_self
  have hinner := Json.nesting_le_of_mem hmem
  have houter := Json.nesting_le_of_mem hobject
  simp only [toJson, Json.nesting] at hinner houter ⊢
  omega

theorem allNames_nodup (child : Decoder Node) : (form child).allNames.Nodup := by
  have hnames : (form child).allNames = ["children", "definition", "origin"] := rfl
  rw [hnames]
  decide

/-- the value of the children, which are left out if there are none -/
def childrenValue (children : List (String × Node)) : Form.Value Node :=
  if children.isEmpty then none
  else some (.object (toJsonList children), fun n => { n with children := storableList children })

theorem memberOf_childrenValue (f : Field Node) (children : List (String × Node)) :
    Form.memberOf f (childrenValue children) =
      if children.isEmpty then [] else [(f.name, .object (toJsonList children))] := by
  unfold childrenValue
  split <;> rfl

theorem changed_childrenValue {children : List (String × Node)} {n : Node} (h : n.children = []) :
    Form.changed (childrenValue children) n = { n with children := storableList children } := by
  obtain ⟨none', definition, origin⟩ := n
  cases children with
  | nil => simp_all [childrenValue, Form.changed, storableList]
  | cons c cs => rfl

open Form in
/-- a stored tree is read as what is storable of it -/
theorem reads_toJson {n : Node} (hordered : n.Ordered) (h : ∀ x ∈ n.bounds, x.isFinite = true → ReadsBack x)
    {depth : Nat} (hdepth : n.toJson.nesting ≤ depth) : (decoder depth).Reads n.toJson n.storable := by
  induction n using induct generalizing depth with
  | h n ih =>
    obtain ⟨children, definition, origin⟩ := n
    obtain ⟨depth, rfl⟩ : ∃ k, depth = k + 1 := ⟨depth - 1, by simp [toJson, Json.nesting] at hdepth; omega⟩
    have hchildren : Carries (Field.of "children" (.table (decoder depth)) fun v n => { n with children := v.entries })
        (childrenValue children) := by
      unfold childrenValue
      split_ifs with hempty
      · rfl
      · have htable : (Decoder.table (decoder depth)).Reads (.object (toJsonList children))
            (Dict.ofList (storableList children)) := by
          refine Decoder.Reads.table ?_
          rw [toJsonList_eq, storableList_eq, List.forall₂_map_left_iff, List.forall₂_map_right_iff, List.forall₂_same]
          intro c hc
          have hroom := @nesting_child ⟨children, definition, origin⟩ c hc
          exact ⟨rfl, ih c hc (hordered.child hc) (fun x hx => h x (mem_bounds.2 (Or.inr ⟨c, hc, hx⟩))) (by omega)⟩
        have hsorted : Entries.Sorted (storableList children) := by
          rw [storableList_eq]
          exact List.pairwise_map.2 hordered.sorted
        have hentries : (Dict.ofList (storableList children)).entries = storableList children :=
          Entries.ofList_of_sorted hsorted
        have hread := htable.map fun v (n : Node) => { n with children := v.entries }
        rwa [hentries] at hread
    have hdefinition : ∀ d ∈ definition, PixelDefinition.decoder.Reads d.toJson d.storable := fun d hd =>
      PixelDefinition.reads_toJson fun x hx => h x (mem_bounds.2 (Or.inl ⟨d, hd, hx⟩))
    have hcarries : List.Forall₂ Carries (form (decoder depth)).fields _ :=
      .cons hchildren <| .cons (carries_optionValue hdefinition fun _ _ => rfl) <| .cons (carries_textValue origin) .nil
    refine reads_object (allNames_nodup _) hcarries ?_ ?_
    · simp only [form, written, memberOf_childrenValue, memberOf_optionValue, Field.of, List.append_assoc,
        List.append_nil]
    · simp (disch := rfl) only [form, filled, empty, changed_childrenValue, changed_optionValue, Option.map_id, id]
      rfl

end Node

end PixelAudit
