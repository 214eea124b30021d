import IntegerCalculator.Error

/-!
# Variables

A table gives some names a value. Its entries are kept in the order of the names, by code point, each name once, so that two
tables with the same values are the same table (`Variables.ext_lookup`). Giving a name a value replaces the value it had and
touches no other name (`Variables.lookup_store`). A name of the table may be any text; which texts a line can name is decided
where lines are read.
-/

namespace IntegerCalculator

/-- A table of values by name. -/
structure Variables where
  /-- The names with their values. -/
  entries : List (List Char × Int)
  /-- The names are in increasing order. -/
  sorted : entries.Pairwise (fun x y => x.1 < y.1)
  deriving DecidableEq

namespace Variables

/-- The table that gives no name a value. -/
def empty : Variables := ⟨[], .nil⟩

instance : Inhabited Variables := ⟨empty⟩

/-- The value of a name among the entries. -/
def findEntry (name : List Char) : List (List Char × Int) → Option Int
  | [] => none
  | (n, v) :: rest => if n = name then some v else findEntry name rest

/-- The entries with a value for the name, at its place in the order. -/
def insertEntry (name : List Char) (value : Int) : List (List Char × Int) → List (List Char × Int)
  | [] => [(name, value)]
  | (n, v) :: rest =>
    if n = name then (name, value) :: rest
    else if name < n then (name, value) :: (n, v) :: rest
    else (n, v) :: insertEntry name value rest

/-- The names after an insertion are the names before it and the inserted one. -/
theorem mem_insertEntry {name : List Char} {value : Int} {x : List Char × Int} {l : List (List Char × Int)}
    (h : x ∈ insertEntry name value l) : x = (name, value) ∨ x ∈ l := by
  induction l with
  | nil => exact .inl (List.mem_singleton.1 h)
  | cons y rest ih =>
    simp only [insertEntry] at h
    split at h
    · exact (List.mem_cons.1 h).imp_right (List.mem_cons_of_mem _)
    · split at h
      · exact List.mem_cons.1 h
      · rcases List.mem_cons.1 h with rfl | h
        · exact .inr List.mem_cons_self
        · exact (ih h).imp_right (List.mem_cons_of_mem _)

/-- An insertion keeps the order of the names. -/
theorem pairwise_insertEntry (name : List Char) (value : Int) {l : List (List Char × Int)}
    (h : l.Pairwise (fun x y => x.1 < y.1)) : (insertEntry name value l).Pairwise (fun x y => x.1 < y.1) := by
  induction l with
  | nil => exact List.pairwise_singleton _ _
  | cons y rest ih =>
    obtain ⟨hy, hrest⟩ := List.pairwise_cons.1 h
    simp only [insertEntry]
    split
    · next heq => exact List.pairwise_cons.2 ⟨fun z hz => heq ▸ hy z hz, hrest⟩
    · next hne =>
      split
      · next hlt =>
        refine List.pairwise_cons.2 ⟨fun z hz => ?_, h⟩
        rcases List.mem_cons.1 hz with rfl | hz
        · exact hlt
        · exact List.lt_trans hlt (hy z hz)
      · next hnlt =>
        refine List.pairwise_cons.2 ⟨fun z hz => ?_, ih hrest⟩
        rcases mem_insertEntry hz with rfl | hz
        · exact (Std.lt_trichotomy y.1 name).elim id fun h => absurd h (fun h => h.elim hne hnlt)
        · exact hy z hz

/-- The value of a name, if it has one. -/
def lookup (t : Variables) (name : List Char) : Option Int := findEntry name t.entries

/-- The value of a name, a name without one being an error. -/
def resolve (t : Variables) (name : List Char) : Except Error Int :=
  match t.lookup name with
  | some value => .ok value
  | none => .error .unknownVariable

/-- The table with a value for the name, whether or not it had one. -/
def store (t : Variables) (name : List Char) (value : Int) : Variables :=
  ⟨insertEntry name value t.entries, pairwise_insertEntry name value t.sorted⟩

/-- The number of names that have a value. -/
def count (t : Variables) : Nat := t.entries.length

/-- The table that the pairs give, a later pair replacing an earlier one of the same name. -/
def ofList (pairs : List (List Char × Int)) : Variables :=
  pairs.foldl (fun t p => t.store p.1 p.2) empty

/-- The empty table has no name. -/
theorem lookup_empty (name : List Char) : empty.lookup name = none := rfl

/-- An insertion gives the name its value and leaves every other name as it was. -/
theorem findEntry_insertEntry (name other : List Char) (value : Int) (l : List (List Char × Int)) :
    findEntry other (insertEntry name value l) = if name = other then some value else findEntry other l := by
  induction l with
  | nil => simp [insertEntry, findEntry]
  | cons y rest ih =>
    simp only [insertEntry]
    split
    · next heq => by_cases h : name = other <;> simp_all [findEntry]
    · split
      · simp [findEntry]
      · simp only [findEntry, ih]
        by_cases h : name = other <;> simp_all

/-- Storing gives the name its value and leaves every other name as it was. -/
theorem lookup_store (t : Variables) (name other : List Char) (value : Int) :
    (t.store name value).lookup other = if name = other then some value else t.lookup other :=
  findEntry_insertEntry name other value t.entries

/-- A name that stands in no entry has no value. -/
theorem findEntry_eq_none_of_not_mem {name : List Char} {l : List (List Char × Int)} (h : name ∉ l.map Prod.fst) :
    findEntry name l = none := by
  induction l with
  | nil => rfl
  | cons y rest ih =>
    rw [List.map_cons, List.mem_cons, not_or] at h
    rw [findEntry, if_neg (Ne.symm h.1), ih h.2]

/-- A name that stands before every entry has no value. -/
theorem findEntry_eq_none_of_lt {name : List Char} {l : List (List Char × Int)} (h : ∀ x ∈ l, name < x.1) :
    findEntry name l = none := by
  refine findEntry_eq_none_of_not_mem ?_
  intro hmem
  obtain ⟨x, hx, rfl⟩ := List.mem_map.1 hmem
  exact List.lt_irrefl x.1 (h x hx)

/-- Entries in order that give every name the same value are the same entries. -/
theorem entries_ext {l m : List (List Char × Int)} (hl : l.Pairwise (fun x y => x.1 < y.1))
    (hm : m.Pairwise (fun x y => x.1 < y.1)) (h : ∀ name, findEntry name l = findEntry name m) : l = m := by
  induction l generalizing m with
  | nil =>
    cases m with
    | nil => rfl
    | cons y ys => exact absurd (h y.1) (by simp [findEntry])
  | cons x xs ih =>
    cases m with
    | nil => exact absurd (h x.1) (by simp [findEntry])
    | cons y ys =>
      obtain ⟨hx, hxs⟩ := List.pairwise_cons.1 hl
      obtain ⟨hy, hys⟩ := List.pairwise_cons.1 hm
      have hxy : x.1 = y.1 := by
        rcases Std.lt_trichotomy x.1 y.1 with hlt | heq | hlt
        · have := h x.1
          rw [findEntry_eq_none_of_lt fun z hz => (List.mem_cons.1 hz).elim (· ▸ hlt) fun hz => List.lt_trans hlt (hy z hz)]
            at this
          exact absurd this (by simp [findEntry])
        · exact heq
        · have := h y.1
          rw [findEntry_eq_none_of_lt fun z hz => (List.mem_cons.1 hz).elim (· ▸ hlt) fun hz => List.lt_trans hlt (hx z hz)]
            at this
          exact absurd this (by simp [findEntry])
      have hv : x.2 = y.2 := by simpa [findEntry, hxy] using h x.1
      have hrest : xs = ys := by
        refine ih hxs hys fun name => ?_
        by_cases hn : name = x.1
        · rw [hn, findEntry_eq_none_of_lt hx, hxy, findEntry_eq_none_of_lt hy]
        · simpa [findEntry, Ne.symm hn, ← hxy] using h name
      rw [Prod.ext hxy hv, hrest]

/-- Two tables that give every name the same value are the same table. -/
theorem ext_lookup {s t : Variables} (h : ∀ name, s.lookup name = t.lookup name) : s = t := by
  cases s
  cases t
  congr
  exact entries_ext (by assumption) (by assumption) h

/-! ## Tables and their entries -/

/-- Where no name stands twice, the value of a name is the one that stands beside it. -/
theorem findEntry_eq_some_iff {l : List (List Char × Int)} (h : (l.map Prod.fst).Nodup) {name : List Char} {value : Int} :
    findEntry name l = some value ↔ (name, value) ∈ l := by
  induction l with
  | nil => simp [findEntry]
  | cons y rest ih =>
    obtain ⟨hy, hrest⟩ := List.nodup_cons.1 h
    rw [findEntry, List.mem_cons, Prod.ext_iff]
    split
    · next heq =>
      have hmem : (name, value) ∉ rest := fun hmem => hy (heq ▸ List.mem_map_of_mem hmem)
      simp [heq, hmem, eq_comm]
    · next hne => simp [Ne.symm hne, ih hrest]

/-- No name stands twice in a table. -/
theorem nodup_names (t : Variables) : (t.entries.map Prod.fst).Nodup := by
  refine List.pairwise_map.2 (t.sorted.imp ?_)
  intro x y hlt heq
  exact List.lt_irrefl y.1 (heq ▸ hlt)

/-- Storing entries in which no name stands twice gives their names their values and leaves every other name as it was. -/
theorem lookup_foldl_store {pairs : List (List Char × Int)} (h : (pairs.map Prod.fst).Nodup) (t : Variables)
    (name : List Char) :
    (pairs.foldl (fun t p => t.store p.1 p.2) t).lookup name = (findEntry name pairs).or (t.lookup name) := by
  induction pairs generalizing t with
  | nil => rfl
  | cons p rest ih =>
    obtain ⟨hp, hrest⟩ := List.nodup_cons.1 h
    rw [List.foldl_cons, ih hrest, lookup_store, findEntry]
    split
    · next heq =>
      rw [findEntry_eq_none_of_not_mem (heq ▸ hp)]
      rfl
    · rfl

/-- The entries of a table give the table, in whatever order they stand. -/
theorem ofList_of_perm {t : Variables} {pairs : List (List Char × Int)} (h : pairs.Perm t.entries) : ofList pairs = t := by
  have hnodup : (pairs.map Prod.fst).Nodup := (h.map Prod.fst).nodup_iff.2 t.nodup_names
  refine ext_lookup fun name => ?_
  have hlookup : (ofList pairs).lookup name = findEntry name pairs := by
    rw [ofList, lookup_foldl_store hnodup, lookup_empty, Option.or_none]
  rw [hlookup]
  refine Option.ext fun value => ?_
  exact (findEntry_eq_some_iff hnodup).trans (h.mem_iff.trans (findEntry_eq_some_iff t.nodup_names).symm)

end Variables

end IntegerCalculator
