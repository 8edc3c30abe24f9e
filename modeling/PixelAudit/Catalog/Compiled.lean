/-
The tree of families with their rules compiled, and the look-up of the family that an event belongs to.

A family has its own parameters and, after them, those of the declared families above it, nearest first; suffixes come
the other way round, the topmost family first. The version that a family asks for is the newest of those of the product,
of the declared families above it, of itself and of its parameters.

An event belongs to the node that is reached by following the segments of its name as far as they go; it has a family
only if that very node is declared.
-/
import PixelAudit.Catalog.Node
import PixelAudit.Schema.Family

namespace PixelAudit

/-- a declared family with its rules -/
structure PixelFamily where
  /-- the full name of the family -/
  name : String
  owners : NameSet
  /-- events of older versions are not judged -/
  minVersion : Option AppVersion
  schema : FamilySchema

structure CompiledNode where
  children : List (String × CompiledNode) := []
  family : Option PixelFamily := none

/-- what the declared families above a node hand down -/
structure Inherited where
  /-- nearest family first -/
  params : List ParamSpec := []
  /-- topmost family first -/
  suffixes : List SuffixSpec := []
  minVersion : Option AppVersion := none

namespace Inherited

/-- what a declared family hands down -/
def extend (i : Inherited) (d : PixelDefinition) : Inherited :=
  { params := d.parameters ++ i.params
    suffixes := i.suffixes ++ d.suffixes
    minVersion := AppVersion.newer? i.minVersion d.minVersion }

/-- what a node hands down -/
def through (i : Inherited) : Option PixelDefinition → Inherited
  | some d => i.extend d
  | none => i

end Inherited

namespace CompiledNode

/-- the family of a declared node; `scope` holds its own declarations too -/
def compileFamily (ctx : CompileContext) (path : String) (scope : Inherited) (d : PixelDefinition) :
    Except AuditError PixelFamily :=
  match FamilySchema.compile scope.params scope.suffixes ctx with
  | .error fault => .error (.definition path fault)
  | .ok schema => .ok {
      name := path
      owners := d.owners
      minVersion := AppVersion.newer? scope.minVersion schema.params.versionFloor
      schema }

def childPath (path segment : String) : String := if path = "" then segment else path ++ "." ++ segment

/-- the first sibling that another segment is confused with once letters are folded -/
def rival? (siblings : List (String × Node)) (segment : String) : Option Node :=
  (siblings.find? fun s => s.1 ≠ segment && Text.lower s.1 == Text.lower segment).map Prod.snd

mutual

/-- compile a node under a path, and then its children -/
def compile (ctx : CompileContext) (path : String) (inherited : Inherited) : Node → Except AuditError CompiledNode
  | ⟨children, definition, _⟩ => do
    let scope := inherited.through definition
    let family ← match definition with
      | some d => (compileFamily ctx path scope d).map some
      | none => .ok none
    let compiled ← compileChildren ctx path scope children [] children
    return ⟨compiled, family⟩

/-- compile children one by one; two that fold to one segment are in conflict -/
def compileChildren (ctx : CompileContext) (path : String) (scope : Inherited) (siblings : List (String × Node))
    (done : List (String × CompiledNode)) : List (String × Node) → Except AuditError (List (String × CompiledNode))
  | [] => .ok done
  | (segment, child) :: rest => do
    let key := ctx.fold segment
    let compiled ← compile ctx (childPath path segment) scope child
    if (Entries.find? key done).isSome then
      throw (.conflict (childPath path segment) (((rival? siblings segment).bind Node.firstOrigin).getD "")
        (child.firstOrigin.getD ""))
    compileChildren ctx path scope siblings (Entries.insert key compiled done) rest

end

mutual

/-- number of families -/
def familyCount : CompiledNode → Nat
  | ⟨children, family⟩ => (if family.isSome then 1 else 0) + familyCountList children

def familyCountList : List (String × CompiledNode) → Nat
  | [] => 0
  | (_, child) :: rest => child.familyCount + familyCountList rest

end

/-- follow the segments as far as they go: the node reached, and the bytes used, a segment with the point after it -/
def walk (n : CompiledNode) (used : Nat) : List String → CompiledNode × Nat
  | [] => (n, used)
  | segment :: rest =>
    match Entries.find? segment n.children with
    | some child => child.walk (used + segment.utf8ByteSize + 1) rest
    | none => (n, used)

end CompiledNode

structure CompiledCatalog where
  root : CompiledNode := {}
  lowerCase : Bool := false

/-- the family of an event, and what follows its name -/
structure FamilyMatch where
  family : Option PixelFamily
  /-- what the name has after the bytes used -/
  remainder : String

namespace CompiledCatalog

def build (root : Node) (ctx : CompileContext) : Except AuditError CompiledCatalog := do
  let compiled ← CompiledNode.compile ctx "" { minVersion := ctx.minVersion } root
  return ⟨compiled, ctx.forceLowerCase⟩

def familyCount (c : CompiledCatalog) : Nat := c.root.familyCount

/-- the deepest node that the name leads to -/
def lookup (c : CompiledCatalog) (pixel : String) : FamilyMatch :=
  let (node, used) := c.root.walk 0 (Text.pieces '.' pixel)
  ⟨node.family, String.ofList ((Text.fromByte? used pixel.toList).getD [])⟩

end CompiledCatalog

end PixelAudit
