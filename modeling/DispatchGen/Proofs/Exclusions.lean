import DispatchGen.Proofs.Keys
import Mathlib.Data.List.Dedup
import Mathlib.Data.List.Sort

/-!
# Types with and without exclusion

An accepted type catalog is its declared types, cut in two by the excluded names: `excluded` and
`dispatchable` hold each type once between them, in declaration order, and a type of any origin counts
as excluded by its name alone (`TypeCatalog.Splits`). Names and ordinals occur once, so that looking
one up finds the type that carries it. The same split can be had by position
(`TypeCatalog.SplitsByPosition`): look up where each excluded name is declared, keep every position
once, in ascending order, and tell the types apart by whether theirs is among them.
`TypeCatalog.exclusion_splits` says all this of every catalog that `TypeCatalog.ofTypes` returns.
-/

namespace DispatchGen

namespace TypeCatalog

/-- Where the type called `name` is declared. -/
def position (types : List ElementType) (name : String) : Nat :=
  types.findIdx (·.name == name)

/-- Where the excluded types are declared: every position once, in ascending order. -/
def positions (types : List ElementType) (exclusions : List String) : List Nat :=
  (exclusions.map (position types)).dedup.mergeSort

/-- The types are split by whether their names are excluded. -/
structure Splits (c : TypeCatalog) (types : List ElementType) (exclusions : List String) : Prop where
  types_eq : c.types = types
  excluded_eq : c.excluded = types.filter (·.name ∈ exclusions)
  dispatchable_eq : c.dispatchable = types.filter (·.name ∉ exclusions)
  once : ∀ type ∈ types, c.excluded.count type + c.dispatchable.count type = 1
  excluded_names : (c.excluded.map (·.name)).Perm exclusions.dedup
  isExcluded_iff : ∀ type, c.isExcluded type = true ↔ type.name ∈ exclusions

/-- The types are split by whether their positions are those of excluded names. -/
structure SplitsByPosition (c : TypeCatalog) (types : List ElementType) (excludedAt : List Nat) :
    Prop where
  excluded_eq : c.excluded = excludedAt.filterMap (types[·]?)
  dispatchable_eq :
    c.dispatchable = (types.zipIdx.filter fun (_, i) => i ∉ excludedAt).map Prod.fst
  isExcluded_iff : ∀ type, c.isExcluded type = true ↔
    ∃ i ∈ excludedAt, (types[i]?).map (·.name) = some type.name

/-! ## Positions -/

section
variable {types : List ElementType} {exclusions : List String}

theorem mem_positions {i : Nat} :
    i ∈ positions types exclusions ↔ ∃ name ∈ exclusions, position types name = i := by
  rw [positions, List.mem_mergeSort, List.mem_dedup, List.mem_map]

theorem positions_sortedLT : (positions types exclusions).SortedLT := by
  have hnodup : (positions types exclusions).Nodup :=
    (List.mergeSort_perm _ _).nodup_iff.2 (List.nodup_dedup _)
  exact List.sortedLE_mergeSort.sortedLT_of_nodup hnodup

/-- A declared name has its position among the types. -/
theorem position_lt {name : String} (h : name ∈ types.map (·.name)) :
    position types name < types.length := by
  obtain ⟨type, ht, hname⟩ := List.mem_map.1 h
  exact List.findIdx_lt_length.2 ⟨type, ht, by simpa using hname⟩

variable (hn : (types.map (·.name)).Nodup)
include hn

/-- The type at a position is the one whose name is looked up there. -/
theorem position_eq_iff {i : Nat} {type : ElementType} (hi : types[i]? = some type)
    {name : String} : position types name = i ↔ type.name = name := by
  obtain ⟨hlt, htype⟩ := List.getElem?_eq_some_iff.1 hi
  unfold position
  rw [List.findIdx_eq hlt, htype]
  refine ⟨fun h => by simpa using h.1, fun h => ⟨by simpa using h, fun j hj => ?_⟩⟩
  -- an earlier type of the name would be a second one
  by_contra hname
  have hfirst : (types.map (·.name))[j]? = (types.map (·.name))[i]? := by
    have hj' : types[j]? = some types[j] := List.getElem?_eq_getElem (by omega)
    rw [List.getElem?_map, List.getElem?_map, hj', hi]
    simpa [h] using hname
  exact List.nodup_iff_getElem?_ne_getElem?.1 hn j i hj (by simpa using hlt) hfirst

theorem mem_positions_iff {i : Nat} {type : ElementType} (hi : types[i]? = some type) :
    i ∈ positions types exclusions ↔ type.name ∈ exclusions := by
  rw [mem_positions]
  refine ⟨fun ⟨name, hname, hp⟩ => ?_, fun h => ⟨_, h, (position_eq_iff hn hi).2 rfl⟩⟩
  rwa [(position_eq_iff hn hi).1 hp]

/-- Sorting the positions of the names gives the positions in the order of the types. -/
theorem positions_eq (hx : ∀ name ∈ exclusions, name ∈ types.map (·.name)) :
    positions types exclusions =
      (types.zipIdx.filter fun p => p.1.name ∈ exclusions).map Prod.snd := by
  have hsorted : ((types.zipIdx.filter fun p => p.1.name ∈ exclusions).map Prod.snd).SortedLT := by
    have hall : (types.zipIdx.map Prod.snd).Pairwise (· < ·) := by
      rw [List.zipIdx_map_snd]
      exact List.pairwise_lt_range'
    exact (hall.sublist (List.filter_sublist.map _)).sortedLT
  refine positions_sortedLT.eq_of_mem_iff hsorted fun i => ?_
  simp only [List.mem_map, List.mem_filter, Prod.exists, List.mem_zipIdx_iff_getElem?,
    decide_eq_true_eq, exists_eq_right]
  refine ⟨fun h => ?_, fun ⟨type, hi, h⟩ => (mem_positions_iff hn hi).2 h⟩
  obtain ⟨name, hname, rfl⟩ := mem_positions.1 h
  have hi := List.getElem?_eq_getElem (position_lt (hx name hname))
  exact ⟨_, hi, (mem_positions_iff hn hi).1 h⟩

end

/-! ## The split -/

section
variable {c : TypeCatalog}

theorem isExcluded_eq_true_iff {type : ElementType} :
    c.isExcluded type = true ↔ type.name ∈ c.exclusions :=
  List.contains_iff_mem

theorem excluded_eq_filter : c.excluded = c.types.filter (·.name ∈ c.exclusions) :=
  List.filter_congr fun type _ => by
    rw [Bool.eq_iff_iff, isExcluded_eq_true_iff, decide_eq_true_iff]

theorem dispatchable_eq_filter_not :
    c.dispatchable = c.types.filter (·.name ∉ c.exclusions) :=
  List.filter_congr fun type _ => by
    rw [Bool.eq_iff_iff, Bool.not_eq_true', ← Bool.not_eq_true, isExcluded_eq_true_iff,
      decide_eq_true_iff]

theorem map_fst_filter_zipIdx {types : List ElementType} (q : ElementType → Bool) :
    (types.zipIdx.filter fun p => q p.1).map Prod.fst = types.filter q := by
  conv_rhs => rw [← List.zipIdx_map_fst 0 types, List.filter_map]
  rfl

theorem count_excluded_add_count_dispatchable (type : ElementType) :
    c.excluded.count type + c.dispatchable.count type = c.types.count type :=
  (List.countP_eq_countP_filter_add c.types (· == type) c.isExcluded).symm

namespace Valid

variable (h : c.Valid)
include h

theorem splits : c.Splits c.types c.exclusions where
  types_eq := rfl
  excluded_eq := excluded_eq_filter
  dispatchable_eq := dispatchable_eq_filter_not
  once type ht := by
    rw [count_excluded_add_count_dispatchable]
    exact List.count_eq_one_of_mem h.names_nodup.of_map ht
  excluded_names := by
    have hnodup : (c.excluded.map (·.name)).Nodup :=
      h.names_nodup.sublist (List.filter_sublist.map _)
    refine (List.perm_ext_iff_of_nodup hnodup (List.nodup_dedup _)).2 fun name => ?_
    rw [excluded_eq_filter, List.mem_dedup]
    simp only [List.mem_map, List.mem_filter, decide_eq_true_eq]
    refine ⟨fun ⟨type, ⟨_, hx⟩, hname⟩ => hname ▸ hx, fun hx => ?_⟩
    obtain ⟨type, ht, rfl⟩ := List.mem_map.1 (h.exclusions_declared name hx)
    exact ⟨type, ⟨ht, hx⟩, rfl⟩
  isExcluded_iff _ := isExcluded_eq_true_iff

theorem splitsByPosition : c.SplitsByPosition c.types (positions c.types c.exclusions) where
  excluded_eq := by
    rw [positions_eq h.names_nodup h.exclusions_declared, List.filterMap_map, excluded_eq_filter,
      ← map_fst_filter_zipIdx, ← List.filterMap_eq_map]
    refine List.filterMap_congr fun p hp => ?_
    exact (List.mem_zipIdx_iff_getElem?.1 (List.mem_filter.1 hp).1).symm
  dispatchable_eq := by
    rw [dispatchable_eq_filter_not, ← map_fst_filter_zipIdx]
    refine congrArg (List.map Prod.fst) (List.filter_congr fun p hp => ?_)
    have hi := List.mem_zipIdx_iff_getElem?.1 hp
    simp only [mem_positions_iff h.names_nodup hi]
  isExcluded_iff type := by
    rw [isExcluded_eq_true_iff]
    simp only [Option.map_eq_some_iff]
    constructor
    · intro hx
      have hlt := position_lt (h.exclusions_declared _ hx)
      have hi := List.getElem?_eq_getElem hlt
      exact ⟨_, mem_positions.2 ⟨_, hx, rfl⟩, _, hi, (position_eq_iff h.names_nodup hi).1 rfl⟩
    · rintro ⟨i, hi, t, ht, hname⟩
      rw [← hname]
      exact (mem_positions_iff h.names_nodup ht).1 hi

end Valid

end

/-- An accepted catalog is its types, split by the names to exclude, in whatever order and however
often these are given; every name and every ordinal leads to the one type that carries it. -/
theorem exclusion_splits {types : List ElementType} {exclusions : List String} {c : TypeCatalog}
    (h : ofTypes types exclusions = .ok c) :
    c.Splits types exclusions ∧ c.SplitsByPosition types (positions types exclusions) ∧
      (types.map (·.name)).Nodup ∧ (types.map (·.ordinal)).Nodup ∧
      (∀ name type, c.get? name = some type ↔ type ∈ types ∧ type.name = name) ∧
      (∀ name, c.get? name = none ↔ name ∉ types.map (·.name)) ∧
      (∀ ordinal type, c.byOrdinal? ordinal = some type ↔ type ∈ types ∧ type.ordinal = ordinal) ∧
      ∀ ordinal, c.byOrdinal? ordinal = none ↔ ordinal ∉ types.map (·.ordinal) := by
  obtain ⟨rfl, hc⟩ := ofTypes_eq_ok_iff.1 h
  refine ⟨hc.splits, hc.splitsByPosition, hc.names_nodup, hc.ordinals_nodup,
    fun name type => find?_eq_some_iff_of_nodup hc.names_nodup, fun name => ?_,
    fun ordinal type => find?_eq_some_iff_of_nodup hc.ordinals_nodup, fun ordinal => ?_⟩
  · simp [get?]
  · simp [byOrdinal?]

/-- Two of four types are excluded, one of them twice and the later one first. -/
theorem exclusion_splits_repeated :
    let int32 : ElementType := .named "INT32" 3
    let unknown : ElementType := .named "UNKNOWN" 0
    let float64 : ElementType := .named "FLOAT64" 1
    let void : ElementType := .named "VOID" 7
    let types := [int32, unknown, float64, void]
    let exclusions := ["VOID", "UNKNOWN", "VOID"]
    ∃ c, ofTypes types exclusions = .ok c ∧ c.excluded = [unknown, void] ∧
      c.dispatchable = [int32, float64] ∧ c.isExcluded (.named "VOID" 1) = true ∧
      c.get? "FLOAT64" = some float64 ∧ c.get? "BOOL" = none ∧ c.byOrdinal? 0 = some unknown ∧
      c.byOrdinal? 2 = none := by
  intro int32 unknown float64 void types exclusions
  obtain ⟨c, hc⟩ := exists_eq_ok (x := ofTypes types exclusions) (by decide +kernel)
  obtain ⟨hsplit, -, -, -, hname, hnoname, hordinal, hnoordinal⟩ := exclusion_splits hc
  refine ⟨c, hc, ?_, ?_, (hsplit.isExcluded_iff _).2 (by decide), (hname _ _).2 (by decide),
    (hnoname _).2 (by decide), (hordinal _ _).2 (by decide), (hnoordinal _).2 (by decide)⟩
  · rw [hsplit.excluded_eq]
    decide +kernel
  · rw [hsplit.dispatchable_eq]
    decide +kernel

end TypeCatalog

end DispatchGen
