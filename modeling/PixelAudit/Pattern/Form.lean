/-
The form of an expression once what is simple about it has been used: characters that follow each other are one literal,
alternatives that are single characters or sets are one set, what all alternatives begin with stands before them, and
what matches only the empty text is not repeated.

Main results: `same_refl` (a form is the same as itself).
-/
import PixelAudit.Pattern.Expr

namespace PixelAudit.Pattern

open Text (CodeSet)

inductive Form where
  | empty
  | literal (chars : List Char)
  /-- a set in increasing order; `ascii` says that the characters are taken as bytes -/
  | chars (set : CodeSet) (ascii : Bool)
  | look (test : Look)
  /-- the text that is matched can be asked for by the number of the group -/
  | group (index : Nat) (body : Form)
  | repeated (least : Nat) (most : Option Nat) (lazy : Bool) (body : Form)
  | concat (items : List Form)
  | alternation (choices : List Form)

namespace Form

mutual

/-- the same form all through -/
def same : Form → Form → Bool
  | empty, empty => true
  | literal a, literal b => a == b
  | chars a p, chars b q => a == b && p == q
  | look a, look b => a == b
  | group i a, group j b => i == j && same a b
  | repeated l m z a, repeated l' m' z' b => l == l' && m == m' && z == z' && same a b
  | concat as, concat bs => sameAll as bs
  | alternation as, alternation bs => sameAll as bs
  | _, _ => false

def sameAll : List Form → List Form → Bool
  | [], [] => true
  | a :: as, b :: bs => same a b && sameAll as bs
  | _, _ => false

end

mutual

/-- a form is the same as itself -/
theorem same_refl : (f : Form) → same f f = true
  | empty => by simp [same]
  | literal _ => by simp [same]
  | chars _ _ => by simp [same]
  | look _ => by simp [same]
  | group _ a => by simp [same, same_refl a]
  | repeated _ _ _ a => by simp [same, same_refl a]
  | concat as => by simp [same, sameAll_refl as]
  | alternation as => by simp [same, sameAll_refl as]

theorem sameAll_refl : (fs : List Form) → sameAll fs fs = true
  | [] => by simp [sameAll]
  | a :: as => by simp [sameAll, same_refl a, sameAll_refl as]

end

mutual

/-- the form can match nothing but the empty text -/
def isOnlyEmpty : Form → Bool
  | empty => true
  | literal _ => false
  | chars _ _ => false
  | look _ => true
  | group _ body => isOnlyEmpty body
  | repeated _ most _ body => most.isSome && isOnlyEmpty body
  | concat items => areOnlyEmpty items
  | alternation choices => areOnlyEmpty choices

def areOnlyEmpty : List Form → Bool
  | [] => true
  | f :: rest => isOnlyEmpty f && areOnlyEmpty rest

end

mutual

/-- the least number of characters of a match; none if a part can never match -/
def leastLength : Form → Option Nat
  | empty => some 0
  | literal cs => some cs.length
  | chars set _ => if set.isEmpty then none else some 1
  | look _ => some 0
  | group _ body => leastLength body
  | repeated least _ _ body => (leastLength body).map (least * ·)
  | concat items => leastSum items
  | alternation choices => leastOfAll choices

def leastSum : List Form → Option Nat
  | [] => some 0
  | f :: rest => do return (← leastLength f) + (← leastSum rest)

def leastOfAll : List Form → Option Nat
  | [] => none
  | [f] => leastLength f
  | f :: rest => do return min (← leastLength f) (← leastOfAll rest)

end

mutual

/-- every match begins with the given test, as far as the form tells -/
def opensWith (test : Look) : Form → Bool
  | look t => t == test
  | group _ body => opensWith test body
  | repeated least _ _ body => 0 < least && opensWith test body
  | concat items => anyOpensWith test items
  | alternation choices => allOpenWith test choices
  | _ => false

/-- one of the items up to the first that can match more than the empty text -/
def anyOpensWith (test : Look) : List Form → Bool
  | [] => false
  | f :: rest => opensWith test f || (isOnlyEmpty f && anyOpensWith test rest)

def allOpenWith (test : Look) : List Form → Bool
  | [] => true
  | f :: rest => opensWith test f && allOpenWith test rest

end

mutual

/-- every match ends with the given test, as far as the form tells -/
def closesWith (test : Look) : Form → Bool
  | look t => t == test
  | group _ body => closesWith test body
  | repeated least _ _ body => 0 < least && closesWith test body
  | concat items => anyClosesWith test items
  | alternation choices => allCloseWith test choices
  | _ => false

/-- one of the items from the last that can match more than the empty text -/
def anyClosesWith (test : Look) : List Form → Bool
  | [] => false
  | f :: rest => anyClosesWith test rest || (areOnlyEmpty rest && closesWith test f)

def allCloseWith (test : Look) : List Form → Bool
  | [] => true
  | f :: rest => closesWith test f && allCloseWith test rest

end

/-- no text at all -/
def never : Form := chars [] true

def ofChar (c : Char) : Form := literal [c]

/-- a set; that of a single character is a literal -/
def ofSet (set : CodeSet) (ascii : Bool) : Form :=
  match CodeSet.scalars set with
  | [] => never
  | [(a, b)] => if a = b then ofChar (Char.ofNat a) else chars [(a, b)] ascii
  | set => chars set ascii

/-- a form some number of times -/
def times (least : Nat) (most : Option Nat) (lazy : Bool) (body : Form) : Form :=
  let (least, most) := if body.isOnlyEmpty then (min least 1, some (min (most.getD 1) 1)) else (least, most)
  if least = 0 ∧ most = some 0 then empty
  else if least = 1 ∧ most = some 1 then body
  else repeated least most lazy body

/-- the items of a form that is a sequence -/
def items : Form → List Form
  | empty => []
  | concat fs => fs
  | f => [f]

/-- literals that follow each other as one -/
def joinLiterals : List Form → List Form
  | literal a :: rest =>
    match joinLiterals rest with
    | literal b :: rest => literal (a ++ b) :: rest
    | rest => literal a :: rest
  | f :: rest => f :: joinLiterals rest
  | [] => []

/-- forms one after the other -/
def sequence (fs : List Form) : Form :=
  match joinLiterals (fs.flatMap items) with
  | [] => empty
  | [f] => f
  | fs => concat fs

/-- the choices of a form that is an alternation -/
def choices : Form → List Form
  | alternation fs => fs
  | f => [f]

/-- a single character -/
def single? : Form → Option CodeSet
  | literal [c] => some (CodeSet.single c)
  | _ => none

def set? : Form → Option CodeSet
  | chars set _ => some set
  | _ => none

def concat? : Form → Option (List Form)
  | concat fs => some fs
  | _ => none

/-- number of items at the start that two lists share -/
def sharedLength : List Form → List Form → Nat
  | a :: as, b :: bs => if same a b then sharedLength as bs + 1 else 0
  | _, _ => 0

/-- the choice between sequences, what all of them begin with taken out -/
def choose : Nat → List Form → Form
  | 0, fs => alternation fs
  | fuel + 1, fs =>
    match fs.flatMap choices with
    | [] => never
    | [f] => f
    | fs =>
      match (fs.mapM single?).or (fs.mapM set?) with
      | some sets => ofSet sets.flatten false
      | none =>
        match fs.mapM concat? with
        | some (first :: rest) =>
          let shared := rest.foldl (fun n other => min n (sharedLength first other)) first.length
          if shared = 0 then alternation fs
          else
            let ends := (first :: rest).map fun items => sequence (items.drop shared)
            sequence (first.take shared ++ [choose fuel ends])
        | _ => alternation fs

mutual

/-- number of parts -/
def size : Form → Nat
  | group _ body => size body + 1
  | repeated _ _ _ body => size body + 1
  | concat items => sizeAll items + 1
  | alternation choices => sizeAll choices + 1
  | _ => 1

def sizeAll : List Form → Nat
  | [] => 0
  | f :: rest => size f + sizeAll rest

end

/-- one form or another -/
def anyOf (fs : List Form) : Form := choose (sizeAll fs + 1) fs

mutual

/-- the expression that the form stands for -/
def expr : Form → Expr CodeSet Look
  | empty => .empty
  | literal cs => cs.foldr (fun c e => .seq (.chars (CodeSet.single c)) e) .empty
  | chars set _ => .chars set
  | look test => .look test
  | group _ body => expr body
  | repeated least most _ body => .repeated least most (expr body)
  | concat items => exprOfItems items
  | alternation choices => exprOfChoices choices

def exprOfItems : List Form → Expr CodeSet Look
  | [] => .empty
  | f :: rest => .seq (expr f) (exprOfItems rest)

def exprOfChoices : List Form → Expr CodeSet Look
  | [] => .chars []
  | f :: rest => .alt (expr f) (exprOfChoices rest)

end

end Form

end PixelAudit.Pattern
