/-
Tables from names to values, kept in increasing order of the names (strings are ordered by code point).

`Entries` holds the operations on the bare list of pairs, which is what a tree with named children carries; `Dict`
packs such a list with its order, so that two tables that give the same answers are equal; `NameSet` is a table
without values.

Main results: `Entries.sorted_insert` (inserting keeps the order), `Entries.find?_insert` (reading back what was
inserted), `Dict.ext_find?` (a table is determined by its answers).
-/

namespace PixelAudit

namespace Entries

variable {α β : Type}

/-- names in strictly increasing order -/
abbrev Sorted (es : List (String × α)) : Prop := es.Pairwise (fun a b => a.1 < b.1)

/-- the value stored under a name -/
def find? (name : String) : List (String × α) → Option α
  | [] => none
  | (k, v) :: rest => if k = name then some v else find? name rest

/-- store a value under a name, replacing an earlier one, and keep the order -/
def insert (name : String) (value : α) : List (String × α) → List (String × α)
  | [] => [(name, value)]
  | (k, v) :: rest =>
    if name < k then (name, value) :: (k, v) :: rest
    else if k = name then (name, value) :: rest
    else (k, v) :: insert name value rest

/-- collect pairs into order; of two pairs with one name the later stays -/
def ofList (es : List (String × α)) : List (String × α) :=
  es.foldl (fun acc e => insert e.1 e.2 acc) []

@[simp] theorem find?_nil (key : String) : find? key ([] : List (String × α)) = none := rfl

@[grind =] theorem find?_cons (key k : String) (v : α) (rest : List (String × α)) :
    find? key ((k, v) :: rest) = if k = key then some v else find? key rest := rfl

@[simp] theorem insert_nil (name : String) (value : α) : insert name value [] = [(name, value)] := rfl

@[grind =] theorem insert_cons (name k : String) (value v : α) (rest : List (String × α)) :
    insert name value ((k, v) :: rest) =
      if name < k then (name, value) :: (k, v) :: rest
      else if k = name then (name, value) :: rest
      else (k, v) :: insert name value rest := rfl

theorem mem_insert {name : String} {value : α} {es : List (String × α)} {e : String × α}
    (h : e ∈ insert name value es) : e = (name, value) ∨ e ∈ es := by
  induction es with
  | nil => simpa using h
  | cons head rest ih => grind

theorem sorted_insert {name : String} {value : α} {es : List (String × α)} (h : Sorted es) :
    Sorted (insert name value es) := by
  induction es with
  | nil => simp
  | cons head rest ih =>
    obtain ⟨k, v⟩ := head
    have hm := @mem_insert α name value rest
    simp only [Sorted, List.pairwise_cons] at h ih ⊢
    rw [insert_cons]
    split
    · simp only [List.pairwise_cons, List.mem_cons]
      grind
    · split
      · simp only [List.pairwise_cons]
        grind
      · simp only [List.pairwise_cons]
        grind

theorem sorted_foldl_insert {es : List (String × α)} {acc : List (String × α)} (h : Sorted acc) :
    Sorted (es.foldl (fun acc e => insert e.1 e.2 acc) acc) := by
  induction es generalizing acc with
  | nil => exact h
  | cons e es ih => exact ih (sorted_insert h)

theorem sorted_ofList (es : List (String × α)) : Sorted (ofList es) :=
  sorted_foldl_insert List.Pairwise.nil

theorem find?_insert (name key : String) (value : α) (es : List (String × α)) :
    find? key (insert name value es) = if name = key then some value else find? key es := by
  induction es with
  | nil => simp [find?_cons]
  | cons head rest ih => grind

theorem find?_eq_none_of_lt {key : String} {es : List (String × α)} (h : ∀ e ∈ es, key < e.1) :
    find? key es = none := by
  induction es with
  | nil => rfl
  | cons head rest ih => grind

theorem find?_eq_some_iff {key : String} {value : α} {es : List (String × α)} (h : Sorted es) :
    find? key es = some value ↔ (key, value) ∈ es := by
  induction es with
  | nil => simp
  | cons head rest ih =>
    simp only [Sorted, List.pairwise_cons] at h ih ⊢
    grind

theorem ext_find? {es fs : List (String × α)} (he : Sorted es) (hf : Sorted fs)
    (h : ∀ key, find? key es = find? key fs) : es = fs := by
  induction es generalizing fs with
  | nil =>
    cases fs with
    | nil => rfl
    | cons f rest =>
      obtain ⟨k, v⟩ := f
      simpa [find?_cons] using h k
  | cons e es ih =>
    obtain ⟨k, v⟩ := e
    cases fs with
    | nil => simpa [find?_cons] using h k
    | cons f fs =>
      obtain ⟨k', v'⟩ := f
      simp only [Sorted, List.pairwise_cons] at he hf
      have hk : k = k' := by
        have h1 := h k
        have h2 := h k'
        have n1 := @find?_eq_none_of_lt α k fs
        have n2 := @find?_eq_none_of_lt α k' es
        grind
      subst hk
      have hv : v = v' := by simpa [find?_cons] using h k
      subst hv
      have hrest : es = fs := by
        refine ih he.2 hf.2 fun key => ?_
        by_cases hkey : k = key
        · subst hkey
          rw [find?_eq_none_of_lt he.1, find?_eq_none_of_lt hf.1]
        · simpa [find?_cons, hkey] using h key
      rw [hrest]

end Entries

/-- a table from names to values, in increasing order of the names -/
structure Dict (α : Type) where
  entries : List (String × α)
  sorted : Entries.Sorted entries
  deriving DecidableEq

namespace Dict

variable {α β : Type}

def empty : Dict α := ⟨[], List.Pairwise.nil⟩

instance : EmptyCollection (Dict α) := ⟨empty⟩

instance : Inhabited (Dict α) := ⟨empty⟩

def find? (d : Dict α) (name : String) : Option α := Entries.find? name d.entries

def contains (d : Dict α) (name : String) : Bool := (d.find? name).isSome

/-- the value under a name, or the given one when there is none -/
def getD (d : Dict α) (name : String) (fallback : α) : α := (d.find? name).getD fallback

def insert (d : Dict α) (name : String) (value : α) : Dict α :=
  ⟨Entries.insert name value d.entries, Entries.sorted_insert d.sorted⟩

/-- collect pairs; of two pairs with one name the later stays -/
def ofList (es : List (String × α)) : Dict α := ⟨Entries.ofList es, Entries.sorted_ofList es⟩

def names (d : Dict α) : List String := d.entries.map Prod.fst

def values (d : Dict α) : List α := d.entries.map Prod.snd

def size (d : Dict α) : Nat := d.entries.length

def isEmpty (d : Dict α) : Bool := d.entries.isEmpty

/-- apply a function to every value, which may look at the name -/
def map (f : String → α → β) (d : Dict α) : Dict β :=
  ⟨d.entries.map (fun e => (e.1, f e.1 e.2)), by
    have h := d.sorted
    simp only [Entries.Sorted] at h ⊢
    exact List.pairwise_map.mpr h⟩

@[simp] theorem find?_empty (name : String) : (∅ : Dict α).find? name = none := rfl

@[simp, grind =] theorem find?_insert (d : Dict α) (name key : String) (value : α) :
    (d.insert name value).find? key = if name = key then some value else d.find? key :=
  Entries.find?_insert name key value d.entries

/-- a table is determined by its answers -/
theorem ext_find? {d e : Dict α} (h : ∀ key, d.find? key = e.find? key) : d = e := by
  obtain ⟨es, hs⟩ := d
  obtain ⟨fs, ht⟩ := e
  have := Entries.ext_find? hs ht h
  subst this
  rfl

end Dict

/-- a set of names, in increasing order -/
abbrev NameSet := Dict Unit

namespace NameSet

def insert (s : NameSet) (name : String) : NameSet := Dict.insert s name ()

def ofList (names : List String) : NameSet := names.foldl insert ∅

/-- all names of both sets -/
def union (s t : NameSet) : NameSet := t.names.foldl insert s

theorem contains_insert (s : NameSet) (name key : String) :
    (insert s name).contains key = (decide (name = key) || s.contains key) := by
  simp only [insert, Dict.contains, Dict.find?_insert]
  split <;> simp_all

end NameSet

end PixelAudit
