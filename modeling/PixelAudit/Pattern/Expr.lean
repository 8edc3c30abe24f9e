/-
Regular expressions over characters, and where in a text they are found.

A set of places in a text of `n` characters is a number whose bits 0 to n say which places belong to it. An expression
takes the places where a match may start to those where one may end: `Expr.ends`. Characters shift the set by one place,
tests of the surroundings cut it down, and repetition runs until nothing is added, so the work is bounded by the text
and the expression.

Main results: `iterate_eq` (stopping early does not change an iteration).
-/
import PixelAudit.Text.Property

namespace PixelAudit.Pattern

open Text (CodeSet)

/-- what is tested about a place in a text, without consuming anything -/
inductive Look where
  | textStart
  | textEnd
  | lineStart
  | lineEnd
  /-- line ends may be written with a carriage return too -/
  | lineStartCrlf
  | lineEndCrlf
  /-- a word begins or ends here -/
  | boundary (ascii : Bool)
  | noBoundary (ascii : Bool)
  | wordStart (ascii : Bool)
  | wordEnd (ascii : Bool)
  /-- no word goes on before this place -/
  | wordStartHalf (ascii : Bool)
  /-- no word goes on after this place -/
  | wordEndHalf (ascii : Bool)
  deriving DecidableEq, Repr

/-- an expression over sets of characters `χ` and tests of places `τ` -/
inductive Expr (χ τ : Type) where
  | empty
  | chars (set : χ)
  | look (test : τ)
  | seq (first second : Expr χ τ)
  | alt (left right : Expr χ τ)
  /-- at least `least` times, and at most `most` times if that is given -/
  | repeated (least : Nat) (most : Option Nat) (body : Expr χ τ)

/-- characters of words within ASCII -/
def asciiWord : CodeSet := CodeSet.ofTable "30-39 41-5A 5F 61-7A"

/-- the character belongs to a word -/
def isWordChar (ascii : Bool) : Option Char → Bool
  | none => false
  | some c => if ascii then asciiWord.mem c.toNat else Text.Property.word.mem c.toNat

namespace Look

/-- the test between the character before and the character after the place -/
def holds (look : Look) (before after : Option Char) : Bool :=
  match look with
  | textStart => before.isNone
  | textEnd => after.isNone
  | lineStart => before.isNone || before == some '\n'
  | lineEnd => after.isNone || after == some '\n'
  | lineStartCrlf => before.isNone || before == some '\n' || (before == some '\r' && after != some '\n')
  | lineEndCrlf => after.isNone || after == some '\r' || (after == some '\n' && before != some '\r')
  | boundary ascii => isWordChar ascii before != isWordChar ascii after
  | noBoundary ascii => isWordChar ascii before == isWordChar ascii after
  | wordStart ascii => !isWordChar ascii before && isWordChar ascii after
  | wordEnd ascii => isWordChar ascii before && !isWordChar ascii after
  | wordStartHalf ascii => !isWordChar ascii before
  | wordEndHalf ascii => !isWordChar ascii after

/-- the places of the rest of a text that pass the test, the first one numbered zero -/
def places (look : Look) (before : Option Char) : List Char → Nat
  | [] => if look.holds before none then 1 else 0
  | c :: rest => look.places (some c) rest * 2 + (if look.holds before (some c) then 1 else 0)

end Look

/-- the places of a text that are followed by a character of the set -/
def charPlaces (set : CodeSet) : List Char → Nat
  | [] => 0
  | c :: rest => charPlaces set rest * 2 + (if set.mem c.toNat then 1 else 0)

/-- apply a function a number of times, or until it changes nothing -/
def iterate (f : Nat → Nat) : Nat → Nat → Nat
  | 0, s => s
  | k + 1, s => let t := f s; if t = s then s else iterate f k t

/-- stopping early does not change an iteration -/
theorem iterate_eq (f : Nat → Nat) (k s : Nat) : iterate f k s = Nat.repeat f k s := by
  have fixed : ∀ k s, f s = s → Nat.repeat f k s = s := by
    intro k s h
    induction k with
    | zero => rfl
    | succ k ih => simp [Nat.repeat, ih, h]
  have shift : ∀ k s, Nat.repeat f (k + 1) s = Nat.repeat f k (f s) := by
    intro k s
    induction k with
    | zero => rfl
    | succ k ih => rw [Nat.repeat, ih, Nat.repeat]
  induction k generalizing s with
  | zero => rfl
  | succ k ih =>
    rw [shift, iterate]
    by_cases h : f s = s
    · simp [h, fixed]
    · simp [h, ih]

namespace Expr

/-- replace the sets and the tests -/
def mapLeaves {χ τ χ' τ' : Type} (f : χ → χ') (g : τ → τ') : Expr χ τ → Expr χ' τ'
  | empty => empty
  | chars set => chars (f set)
  | look test => look (g test)
  | seq a b => seq (a.mapLeaves f g) (b.mapLeaves f g)
  | alt a b => alt (a.mapLeaves f g) (b.mapLeaves f g)
  | repeated least most body => repeated least most (body.mapLeaves f g)

/-- The places where a match that starts at one of the given places may end. Sets and tests are given by their places
in a text of so many characters. -/
def ends (size : Nat) : Expr Nat Nat → Nat → Nat
  | empty, s => s
  | chars places, s => (s &&& places) <<< 1
  | look places, s => s &&& places
  | seq a b, s => b.ends size (a.ends size s)
  | alt a b, s => a.ends size s ||| b.ends size s
  | repeated least most body, s =>
    let start := iterate (body.ends size) least s
    let more := match most with
      | none => size + 1
      | some m => m - least
    iterate (fun s => s ||| body.ends size s) more start

/-- the expression is found somewhere in the text -/
def foundIn (e : Expr CodeSet Look) (cs : List Char) : Bool :=
  let size := cs.length
  let placed := e.mapLeaves (fun set => charPlaces set cs) (fun test => test.places none cs)
  placed.ends size (Nat.pow 2 (size + 1) - 1) != 0

end Expr

end PixelAudit.Pattern
