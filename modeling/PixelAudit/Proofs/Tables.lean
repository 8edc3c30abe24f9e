/-
Tables that are put together from their own entries.

Entries that stand in order are collected into the same entries, so that what is written out entry by entry is read as
it was.

Tables that grow: what an insertion adds to a sum over the entries, and to their number.

Sets of names as finite sets: which names they have, how many, and when two of them are equal.

Main results: `Entries.ofList_of_sorted` (entries in order), `NameSet.ofList_names` (a set), `Entries.sum_insert` (the
new entry counts in place of the old one), `NameSet.ext_contains` (a set is determined by its names),
`Dict.size_eq_card` (the size of a table is the number of its names).
-/
import PixelAudit.Dict
import Mathlib.Tactic

namespace PixelAudit

/-- of two related findings, one is there if the other is -/
theorem isSome_of_rel {α β : Type} {R : α → β → Prop} {x : Option α} {y : Option β} (h : Option.Rel R x y) :
    x.isSome = y.isSome := by
  cases h <;> rfl

theorem exists_of_rel {α β : Type} {R : α → β → Prop} {x : Option α} {y : Option β} {a : α} (h : Option.Rel R x y)
    (ha : x = some a) : ∃ b, y = some b ∧ R a b := by
  subst ha
  cases h with
  | some hR => exact ⟨_, rfl, hR⟩

theorem exists_of_rel_some {α β : Type} {R : α → β → Prop} {x : Option α} {y : Option β} {b : β}
    (h : Option.Rel R x y) (hb : y = some b) : ∃ a, x = some a ∧ R a b := by
  subst hb
  cases h with
  | some hR => exact ⟨_, rfl, hR⟩

/-- the first of related items that pass related tests are related -/
theorem rel_find?_of_forall₂ {α β : Type} {R : α → β → Prop} {p : α → Bool} {q : β → Bool} {as : List α}
    {bs : List β} (h : List.Forall₂ R as bs) (htest : ∀ a b, R a b → p a = q b) :
    Option.Rel R (as.find? p) (bs.find? q) := by
  induction h with
  | nil => exact .none
  | @cons a b _ _ hhead _ ih =>
    rw [List.find?_cons, List.find?_cons, htest a b hhead]
    cases q b with
    | true => exact .some hhead
    | false => exact ih

/-- what is computed from a result shows that there is one -/
theorem exists_ok_of_map {ε α β : Type} {x : Except ε α} {f : α → β} {b : β} (h : x.toOption.map f = some b) :
    ∃ a, x = .ok a ∧ f a = b := by
  cases x with
  | error e => cases h
  | ok a => exact ⟨a, rfl, Option.some.inj h⟩

/-- what is on one side of a relation between lists has something on the other -/
theorem exists_of_forall₂ {α β : Type} {R : α → β → Prop} {as : List α} {bs : List β} (h : List.Forall₂ R as bs)
    {a : α} (ha : a ∈ as) : ∃ b ∈ bs, R a b := by
  induction h with
  | nil => cases ha
  | cons hab _ ih =>
    rcases List.mem_cons.1 ha with rfl | ha
    · exact ⟨_, List.mem_cons_self, hab⟩
    · obtain ⟨b, hb, hr⟩ := ih ha
      exact ⟨b, List.mem_cons_of_mem _ hb, hr⟩

namespace Entries

variable {α : Type}

theorem find?_append (es fs : List (String × α)) (name : String) :
    find? name (es ++ fs) = (find? name es).or (find? name fs) := by
  induction es with
  | nil => rfl
  | cons e es ih =>
    rw [List.cons_append, find?, find?]
    split_ifs
    · rfl
    · exact ih

theorem mem_of_find? {es : List (String × α)} {name : String} {value : α} (h : find? name es = some value) :
    (name, value) ∈ es := by
  induction es with
  | nil => cases h
  | cons e es ih =>
    obtain ⟨k, v⟩ := e
    rw [find?] at h
    split_ifs at h with hk
    · obtain rfl := Option.some.inj h
      exact hk ▸ List.mem_cons_self
    · exact List.mem_cons_of_mem _ (ih h)

theorem exists_find?_of_mem {es : List (String × α)} {e : String × α} (h : e ∈ es) :
    ∃ value, find? e.1 es = some value := by
  induction es with
  | nil => cases h
  | cons first es ih =>
    rw [find?]
    split_ifs with hk
    · exact ⟨first.2, rfl⟩
    · rcases List.mem_cons.1 h with rfl | h
      · exact absurd rfl hk
      · exact ih h

/-- a name after all others is put at the end -/
theorem insert_of_forall_lt {name : String} {value : α} {es : List (String × α)} (h : ∀ e ∈ es, e.1 < name) :
    insert name value es = es ++ [(name, value)] := by
  induction es with
  | nil => rfl
  | cons e es ih =>
    obtain ⟨k, v⟩ := e
    have hk : k < name := h (k, v) List.mem_cons_self
    have hnot : ¬ name < k := fun hlt => String.lt_irrefl k (String.lt_trans hk hlt)
    have hne : k ≠ name := by
      rintro rfl
      exact String.lt_irrefl k hk
    rw [insert, if_neg hnot, if_neg hne, ih fun e he => h e (List.mem_cons_of_mem _ he), List.cons_append]

theorem foldl_insert_of_sorted {done es : List (String × α)} (h : Sorted (done ++ es)) :
    es.foldl (fun acc e => insert e.1 e.2 acc) done = done ++ es := by
  induction es generalizing done with
  | nil => simp
  | cons e es ih =>
    have hlast : ∀ d ∈ done, d.1 < e.1 := fun d hd => (List.pairwise_append.1 h).2.2 d hd e List.mem_cons_self
    rw [List.foldl_cons, insert_of_forall_lt hlast, ih (by simpa using h), List.append_assoc, List.singleton_append]

/-- entries in order are collected into the same entries -/
theorem ofList_of_sorted {es : List (String × α)} (h : Sorted es) : ofList es = es :=
  @foldl_insert_of_sorted α [] es h

/-- an entry takes the place of the one of its name, if there is one -/
theorem sum_insert (f : α → Nat) {name : String} {value : α} {es : List (String × α)} (h : Sorted es) :
    ((insert name value es).map fun e => f e.2).sum + ((find? name es).elim 0 f) =
      (es.map fun e => f e.2).sum + f value := by
  induction es with
  | nil => simp [insert, find?]
  | cons e es ih =>
    obtain ⟨k, v⟩ := e
    obtain ⟨hk, hes⟩ := List.pairwise_cons.1 h
    unfold insert
    split_ifs with hlt heq
    · have hnone : find? name ((k, v) :: es) = none := by
        refine find?_eq_none_of_lt fun e he => ?_
        rcases List.mem_cons.1 he with rfl | he
        · exact hlt
        · exact String.lt_trans hlt (hk e he)
      rw [hnone]
      simp [Nat.add_comm]
    · subst heq
      simp [find?]
      omega
    · have hrest := ih hes
      simp only [find?, if_neg heq, List.map_cons, List.sum_cons]
      omega

theorem length_insert {name : String} {value : α} {es : List (String × α)} (h : Sorted es) :
    (insert name value es).length = es.length + if (find? name es).isSome then 0 else 1 := by
  have hsum := @sum_insert α (fun _ => 1) name value es h
  cases hfind : find? name es <;> simp_all

/-- to store once more what is stored changes nothing -/
theorem insert_of_find? {name : String} {value : α} {es : List (String × α)} (h : Sorted es)
    (hvalue : find? name es = some value) : insert name value es = es := by
  refine ext_find? (sorted_insert h) h fun key => ?_
  rw [find?_insert]
  split_ifs with hkey
  · rw [← hkey, hvalue]
  · rfl

end Entries

theorem Dict.size_insert {α : Type} (d : Dict α) {name : String} (value : α) (h : d.find? name = none) :
    (d.insert name value).size = d.size + 1 := by
  have hnone : Entries.find? name d.entries = none := h
  simp [Dict.size, Dict.insert, Entries.length_insert d.sorted, hnone]

/-- a changed table has the changed values under the same names -/
theorem Dict.find?_map {α β : Type} (d : Dict α) (f : String → α → β) (name : String) :
    (d.map f).find? name = (d.find? name).map (f name) := by
  obtain ⟨entries, sorted⟩ := d
  simp only [Dict.map, Dict.find?]
  clear sorted
  induction entries with
  | nil => rfl
  | cons e rest ih =>
    rw [List.map_cons, Entries.find?, Entries.find?]
    split_ifs with hname
    · rw [hname, Option.map_some]
    · exact ih

theorem Dict.ext_entries {α : Type} {d e : Dict α} (h : d.entries = e.entries) : d = e := by
  obtain ⟨es, hs⟩ := d
  obtain ⟨fs, ht⟩ := e
  subst h
  rfl

theorem NameSet.entries_foldl_insert (names : List String) (s : NameSet) :
    (names.foldl NameSet.insert s).entries =
      (names.map fun name => (name, ())).foldl (fun acc e => Entries.insert e.1 e.2 acc) s.entries := by
  induction names generalizing s with
  | nil => rfl
  | cons name names ih => exact ih (NameSet.insert s name)

/-- a set is put together from its names -/
theorem NameSet.ofList_names (s : NameSet) : NameSet.ofList s.names = s := by
  have hentries : s.names.map (fun name => (name, ())) = s.entries := by
    simp [Dict.names, Function.comp_def]
  refine Dict.ext_entries ((NameSet.entries_foldl_insert s.names ∅).trans ?_)
  rw [hentries]
  exact Entries.ofList_of_sorted s.sorted

namespace Dict

variable {α : Type}

theorem find?_eq_some_iff (d : Dict α) {name : String} {value : α} :
    d.find? name = some value ↔ (name, value) ∈ d.entries :=
  Entries.find?_eq_some_iff d.sorted

/-- what holds of all entries holds of what is found -/
theorem forall_of_all (d : Dict α) {test : String → α → Bool} (h : (d.entries.all fun e => test e.1 e.2) = true)
    (name : String) (value : α) (hvalue : d.find? name = some value) : test name value = true :=
  List.all_eq_true.1 h _ (d.find?_eq_some_iff.1 hvalue)

theorem contains_iff_mem_names (d : Dict α) (name : String) : d.contains name = true ↔ name ∈ d.names := by
  rw [contains, Option.isSome_iff_exists, names, List.mem_map]
  constructor
  · rintro ⟨value, h⟩
    exact ⟨(name, value), d.find?_eq_some_iff.1 h, rfl⟩
  · rintro ⟨⟨k, value⟩, h, rfl⟩
    exact ⟨value, d.find?_eq_some_iff.2 h⟩

theorem names_nodup (d : Dict α) : d.names.Nodup := by
  rw [names, List.Nodup, List.pairwise_map]
  refine d.sorted.imp ?_
  intro a b hlt heq
  rw [heq] at hlt
  exact String.lt_irrefl b.1 hlt

/-- of two values stored under one name the later stays -/
theorem insert_insert (d : Dict α) (name : String) (first second : α) :
    (d.insert name first).insert name second = d.insert name second := by
  refine ext_find? fun key => ?_
  simp only [find?_insert]
  split_ifs
  · rfl
  · rfl

/-- a table is determined by its names and by the values under them -/
theorem ext_getD {d e : Dict α} {fallback : α} (hvalue : ∀ name, d.getD name fallback = e.getD name fallback)
    (hname : ∀ name, d.contains name = true ↔ e.contains name = true) : d = e := by
  refine ext_find? fun key => ?_
  have hkey := hname key
  have hsame := hvalue key
  rw [contains, contains] at hkey
  rw [getD, getD] at hsame
  cases hd : d.find? key with
  | none =>
    cases he : e.find? key with
    | none => rfl
    | some _ => rw [hd, he] at hkey; cases hkey.2 rfl
  | some value =>
    cases he : e.find? key with
    | none => rw [hd, he] at hkey; cases hkey.1 rfl
    | some other =>
      rw [hd, he] at hsame
      exact congrArg some hsame

theorem size_eq_card (d : Dict α) : d.size = d.names.toFinset.card := by
  rw [List.toFinset_card_of_nodup d.names_nodup, names, List.length_map, size]

/-- tables with the same names are of one size -/
theorem size_eq_of_contains {β : Type} {d : Dict α} {e : Dict β} (h : ∀ name, d.contains name = e.contains name) :
    d.size = e.size := by
  have hnames : d.names.toFinset = e.names.toFinset := by
    ext name
    rw [List.mem_toFinset, List.mem_toFinset, ← contains_iff_mem_names, ← contains_iff_mem_names, h name]
  rw [size_eq_card, size_eq_card, hnames]

theorem contains_insert (d : Dict α) (name key : String) (value : α) :
    (d.insert name value).contains key = true ↔ name = key ∨ d.contains key = true := by
  rw [contains, find?_insert]
  split_ifs with h
  · simp [h]
  · simp [h, contains]

end Dict

namespace NameSet

/-- a set is determined by its names -/
theorem ext_contains {s t : NameSet} (h : ∀ name, s.contains name = true ↔ t.contains name = true) : s = t :=
  @Dict.ext_getD Unit s t () (fun _ => rfl) h

theorem size_insert {s : NameSet} {name : String} (h : s.contains name = false) :
    (insert s name).size = s.size + 1 :=
  Dict.size_insert s () (by simpa [Dict.contains] using h)

theorem size_le_of_contains {s t : NameSet} (h : ∀ name, s.contains name = true → t.contains name = true) :
    s.size ≤ t.size := by
  rw [Dict.size_eq_card, Dict.size_eq_card]
  refine Finset.card_le_card fun name hname => ?_
  rw [List.mem_toFinset, ← Dict.contains_iff_mem_names] at hname ⊢
  exact h name hname

theorem contains_foldl_insert (names : List String) (s : NameSet) (key : String) :
    (names.foldl insert s).contains key = true ↔ s.contains key = true ∨ key ∈ names := by
  induction names generalizing s with
  | nil => simp
  | cons name names ih =>
    rw [List.foldl_cons, ih, contains_insert, List.mem_cons, Bool.or_eq_true, decide_eq_true_eq]
    tauto

theorem contains_union (s t : NameSet) (key : String) :
    (union s t).contains key = true ↔ s.contains key = true ∨ t.contains key = true := by
  rw [union, contains_foldl_insert, t.contains_iff_mem_names]

theorem contains_ofList (names : List String) (key : String) : (ofList names).contains key = true ↔ key ∈ names := by
  rw [ofList, contains_foldl_insert]
  simp [Dict.contains]

theorem toFinset_names_ofList (names : List String) : (ofList names).names.toFinset = names.toFinset := by
  ext name
  rw [List.mem_toFinset, List.mem_toFinset, ← Dict.contains_iff_mem_names, contains_ofList]

theorem size_ofList_le (names : List String) : (ofList names).size ≤ names.length := by
  rw [Dict.size_eq_card, toFinset_names_ofList]
  exact List.toFinset_card_le names

theorem ofList_eq_empty_iff (names : List String) : ofList names = ∅ ↔ names = [] := by
  constructor
  · intro h
    apply List.eq_nil_iff_forall_not_mem.2
    intro name hname
    have hcontains := (contains_ofList names name).2 hname
    rw [h] at hcontains
    exact Bool.false_ne_true hcontains
  · intro h
    rw [h]
    rfl

end NameSet

end PixelAudit
