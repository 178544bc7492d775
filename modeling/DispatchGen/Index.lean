/-!
# Indexes

An index leads from keys to values. Every key has at most one value: what is inserted under a key
takes the place of what was there. The lemmas `get?_…` say what each operation does to what is found,
and `get?_ofList` that of several values for a key the last one counts.
-/

namespace DispatchGen

/-- The entries of an index, the latest first. -/
structure Index (κ ν : Type) where
  entries : List (κ × ν)
  keys_nodup : (entries.map Prod.fst).Nodup
deriving DecidableEq, Repr

namespace Index

variable {κ ν : Type}

def empty : Index κ ν where
  entries := []
  keys_nodup := List.nodup_nil

def size (index : Index κ ν) : Nat :=
  index.entries.length

variable [BEq κ] (index : Index κ ν) (key : κ)

def get? : Option ν :=
  (index.entries.find? (·.1 == key)).map Prod.snd

def contains : Bool :=
  (index.get? key).isSome

def erase : Index κ ν where
  entries := index.entries.filter (·.1 != key)
  keys_nodup := index.keys_nodup.sublist (List.filter_sublist.map Prod.fst)

@[simp] theorem get?_empty : (empty : Index κ ν).get? key = none :=
  rfl

variable [LawfulBEq κ]

def insert (value : ν) : Index κ ν where
  entries := (key, value) :: (index.erase key).entries
  keys_nodup := by
    rw [List.map_cons, List.nodup_cons]
    refine ⟨fun hkey => ?_, (index.erase key).keys_nodup⟩
    obtain ⟨entry, hentry, hfst⟩ := List.mem_map.1 hkey
    exact absurd (List.mem_filter.1 hentry).2 (by simp [hfst])

/-- Inserts a list of entries, one after the other. -/
def ofList (entries : List (κ × ν)) : Index κ ν :=
  entries.foldl (fun index entry => index.insert entry.1 entry.2) empty

/-- Indexes values by a key that is read off each. -/
def ofValues (keyOf : ν → κ) (values : List ν) : Index κ ν :=
  ofList (values.map fun value => (keyOf value, value))

/-! ## What is found -/

theorem get?_erase (other : κ) :
    (index.erase key).get? other = if other == key then none else index.get? other := by
  rw [get?, erase, List.find?_filter]
  split
  · next h =>
    rw [List.find?_eq_none.2 fun entry _ => ?_]
    · rfl
    · simp [beq_iff_eq.1 h]
  · next h =>
    have hsame : (fun entry : κ × ν => decide ((entry.1 != key) = true ∧ (entry.1 == other) = true)) =
        fun entry => entry.1 == other := by
      funext entry
      by_cases he : entry.1 = other
      · simpa [he] using h
      · simp [he]
    rw [hsame, get?]

theorem get?_insert (value : ν) (other : κ) :
    (index.insert key value).get? other = if other == key then some value else index.get? other := by
  rw [get?, insert, List.find?_cons]
  cases h : key == other with
  | true =>
    rw [beq_iff_eq.1 h]
    simp
  | false =>
    have hother : (other == key) = false := by rw [BEq.comm, h]
    have herase := index.get?_erase key other
    rw [get?, hother] at herase
    simpa [hother] using herase

theorem get?_foldl_insert (entries : List (κ × ν)) :
    (entries.foldl (fun index entry => index.insert entry.1 entry.2) index).get? key =
      ((entries.filter (·.1 == key)).getLast?.map Prod.snd).or (index.get? key) := by
  induction entries generalizing index with
  | nil => rfl
  | cons entry rest ih =>
    rw [List.foldl_cons, ih, get?_insert, List.filter_cons, BEq.comm]
    cases entry.1 == key with
    | false => rfl
    | true =>
      rw [if_pos rfl, if_pos rfl, List.getLast?_cons]
      cases (rest.filter (·.1 == key)).getLast? <;> rfl

/-- Of several entries for a key the last one counts. -/
theorem get?_ofList (entries : List (κ × ν)) :
    (ofList entries).get? key = (entries.filter (·.1 == key)).getLast?.map Prod.snd := by
  rw [ofList, get?_foldl_insert, get?_empty, Option.or_none]

/-- Where no key repeats, the first entry for a key is the only one. -/
theorem get?_ofList_of_nodup {entries : List (κ × ν)} (h : (entries.map Prod.fst).Nodup) :
    (ofList entries).get? key = (entries.find? (·.1 == key)).map Prod.snd := by
  rw [get?_ofList]
  congr 1
  induction entries with
  | nil => rfl
  | cons entry rest ih =>
    rw [List.map_cons, List.nodup_cons] at h
    rw [List.filter_cons, List.find?_cons]
    cases hkey : entry.1 == key with
    | false => exact ih h.2
    | true =>
      have hrest : rest.filter (·.1 == key) = [] := by
        refine List.filter_eq_nil_iff.2 fun other hother he => h.1 ?_
        rw [beq_iff_eq.1 hkey, ← beq_iff_eq.1 he]
        exact List.mem_map_of_mem hother
      simp [hrest]

theorem get?_ofValues (keyOf : ν → κ) (values : List ν) :
    (ofValues keyOf values).get? key = (values.filter (keyOf · == key)).getLast? := by
  rw [ofValues, get?_ofList, List.filter_map, List.getLast?_map, Option.map_map]
  exact Option.map_id'

theorem get?_ofValues_of_nodup {keyOf : ν → κ} {values : List ν} (h : (values.map keyOf).Nodup) :
    (ofValues keyOf values).get? key = values.find? (keyOf · == key) := by
  have hkeys : ((values.map fun value => (keyOf value, value)).map Prod.fst).Nodup := by
    rwa [List.map_map]
  rw [ofValues, get?_ofList_of_nodup key hkeys, List.find?_map, Option.map_map]
  exact Option.map_id'

end Index

end DispatchGen
