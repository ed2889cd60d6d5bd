import Mathlib.Data.Finmap

/-!
# Records of which the first of each key counts

A file of records that never overwrites one is a finite map, and so is a list in which a key is looked
up from the front. Storing a list record by record is the union with its map.
-/
namespace Perdition.Lib

variable {κ ν : Type} [DecidableEq κ]

/-- Stores a record unless there is one with its key. -/
def keepFirst (file : Finmap fun _ : κ => ν) (record : Σ _ : κ, ν) : Finmap fun _ : κ => ν :=
  if record.1 ∈ file then file else file.insert record.1 record.2

theorem keepFirst_mem {file : Finmap fun _ : κ => ν} {record : Σ _ : κ, ν} (is : record.1 ∈ file) :
    keepFirst file record = file := if_pos is

theorem keepFirst_notMem {file : Finmap fun _ : κ => ν} {record : Σ _ : κ, ν}
    (new : record.1 ∉ file) : keepFirst file record = file.insert record.1 record.2 := if_neg new

/-- What is found after a record was stored. -/
theorem lookup_keepFirst (file : Finmap fun _ : κ => ν) (record : Σ _ : κ, ν) (key : κ) :
    (keepFirst file record).lookup key =
      (file.lookup key).or (if key = record.1 then some record.2 else none) := by
  by_cases is : record.1 ∈ file
  · rw [keepFirst_mem is]
    split
    · rename_i same
      have ⟨value, found⟩ := Finmap.mem_iff.mp is
      rw [same, found]
      rfl
    · exact Option.or_none.symm
  · rw [keepFirst_notMem is]
    split
    · rename_i same
      rw [same, Finmap.lookup_insert, Finmap.lookup_eq_none.mpr is]
      rfl
    · rename_i other
      rw [Finmap.lookup_insert_of_ne _ other, Option.or_none]

/-- What is found after records were stored one by one. -/
theorem lookup_foldl_keepFirst (records : List (Σ _ : κ, ν)) (file : Finmap fun _ : κ => ν)
    (key : κ) :
    (records.foldl keepFirst file).lookup key = (file.lookup key).or (records.dlookup key) := by
  induction records generalizing file with
  | nil => exact Option.or_none.symm
  | cons record records ih =>
    rw [List.foldl_cons, ih, lookup_keepFirst, Option.or_assoc]
    congr 1
    obtain ⟨own, value⟩ := record
    by_cases same : key = own
    · subst same
      rw [if_pos rfl, List.dlookup_cons_eq]
      rfl
    · rw [if_neg same, Option.none_or]
      exact (List.dlookup_cons_ne records (⟨own, value⟩ : Σ _ : κ, ν) same).symm

/-- Records that are stored one by one in an empty file are its map. -/
theorem foldl_keepFirst_empty (records : List (Σ _ : κ, ν)) :
    records.foldl keepFirst ∅ = records.toFinmap := by
  refine Finmap.ext_lookup fun key => ?_
  rw [lookup_foldl_keepFirst, Finmap.lookup_empty, Finmap.dlookup_list_toFinmap]
  rfl

/-- The records of a file, in whatever order, are its map. -/
theorem toFinmap_entries (file : AList fun _ : κ => ν) : file.entries.toFinmap = file.toFinmap := by
  refine Finmap.ext_lookup fun key => ?_
  rw [Finmap.dlookup_list_toFinmap]
  rfl

/-- A record is found in a list where it stands. -/
theorem mem_of_lookup_toFinmap {records : List (Σ _ : κ, ν)} {key : κ} {value : ν}
    (found : records.toFinmap.lookup key = some value) : ⟨key, value⟩ ∈ records := by
  rw [Finmap.dlookup_list_toFinmap] at found
  exact List.of_mem_dlookup (Option.mem_def.mpr found)

end Perdition.Lib
