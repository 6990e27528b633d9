import GuestHost.Bytes
/-!
# Tables

A table holds one value for each of its keys, in the order of the keys. Two tables with the same
entries are the same table, and `find?` of a table after `insert` or `erase` changes at the key
concerned only: `find?_insert`, `find?_erase`.
-/

namespace GuestHost

/-- Keys that are totally ordered by `<`. -/
class KeyOrder (κ : Type) [LT κ] : Prop where
  irrefl : ∀ a : κ, ¬ a < a
  trans : ∀ {a b c : κ}, a < b → b < c → a < c
  connex : ∀ {a b : κ}, ¬ a < b → ¬ b < a → a = b

instance : KeyOrder String where
  irrefl := String.lt_irrefl
  trans := String.lt_trans
  connex h h' := String.le_antisymm (String.not_lt.mp h') (String.not_lt.mp h)

instance : KeyOrder Bytes where
  irrefl := List.lt_irrefl
  trans := List.lt_trans
  connex h h' := List.le_antisymm (List.not_lt.mp h') (List.not_lt.mp h)

instance : KeyOrder Nat where
  irrefl := Nat.lt_irrefl
  trans := Nat.lt_trans
  connex h h' := Nat.le_antisymm (Nat.not_lt.mp h') (Nat.not_lt.mp h)

/-- Entries in strictly increasing order of their keys. -/
structure Table (κ ν : Type) [LT κ] where
  entries : List (κ × ν)
  sorted : entries.Pairwise fun a b => a.1 < b.1

namespace Table

variable {κ ν : Type} [LT κ]

/-- The table without entries. -/
def empty : Table κ ν := ⟨[], .nil⟩

instance : Inhabited (Table κ ν) := ⟨empty⟩

theorem ext {s t : Table κ ν} (h : s.entries = t.entries) : s = t := by
  cases s; cases t; cases h; rfl

/-- The keys, in order. -/
def keys (t : Table κ ν) : List κ := t.entries.map Prod.fst

theorem keys_sorted (t : Table κ ν) : t.keys.Pairwise (· < ·) := List.pairwise_map.mpr t.sorted

/-- The number of entries. -/
def size (t : Table κ ν) : Nat := t.entries.length

variable [DecidableLT κ]

/-- Entries with the value put at its key's place. -/
def put (key : κ) (value : ν) : List (κ × ν) → List (κ × ν)
  | [] => [(key, value)]
  | e :: rest =>
    if key < e.1 then (key, value) :: e :: rest
    else if e.1 < key then e :: put key value rest
    else (key, value) :: rest

theorem mem_put {key : κ} {value : ν} {e : κ × ν} {entries : List (κ × ν)}
    (h : e ∈ put key value entries) : e = (key, value) ∨ e ∈ entries := by
  induction entries with
  | nil => simpa [put] using h
  | cons a rest ih =>
    unfold put at h
    split at h
    · simpa using h
    · split at h
      · rcases List.mem_cons.mp h with h | h
        · exact .inr (h ▸ List.mem_cons_self)
        · exact (ih h).imp id (List.mem_cons_of_mem _)
      · rcases List.mem_cons.mp h with h | h
        · exact .inl h
        · exact .inr (List.mem_cons_of_mem _ h)

variable [KeyOrder κ]

theorem put_sorted {key : κ} {value : ν} {entries : List (κ × ν)}
    (h : entries.Pairwise fun a b => a.1 < b.1) :
    (put key value entries).Pairwise fun a b => a.1 < b.1 := by
  induction entries with
  | nil => simp [put]
  | cons a rest ih =>
    obtain ⟨ha, hrest⟩ := List.pairwise_cons.mp h
    unfold put
    split
    · rename_i hlt
      refine List.pairwise_cons.mpr ⟨fun b hb => ?_, h⟩
      rcases List.mem_cons.mp hb with rfl | hb
      · exact hlt
      · exact KeyOrder.trans hlt (ha b hb)
    · split
      · rename_i hgt
        refine List.pairwise_cons.mpr ⟨fun b hb => ?_, ih hrest⟩
        rcases mem_put hb with rfl | hb
        · exact hgt
        · exact ha b hb
      · rename_i hle hge
        refine List.pairwise_cons.mpr ⟨fun b hb => ?_, hrest⟩
        rw [KeyOrder.connex hle hge]
        exact ha b hb

/-- The table with the value at the key. -/
def insert (t : Table κ ν) (key : κ) (value : ν) : Table κ ν :=
  ⟨put key value t.entries, put_sorted t.sorted⟩

/-- The table of a list of pairs, in which a later pair replaces an earlier one of its key. -/
def ofList (pairs : List (κ × ν)) : Table κ ν :=
  pairs.foldl (fun t e => t.insert e.1 e.2) empty

variable [DecidableEq κ]

/-- The value of a key. -/
def find? (t : Table κ ν) (key : κ) : Option ν := t.entries.lookup key

/-- Whether the table has the key. -/
def contains (t : Table κ ν) (key : κ) : Bool := (t.find? key).isSome

/-- The table without the key. -/
def erase (t : Table κ ν) (key : κ) : Table κ ν :=
  ⟨t.entries.filter fun e => e.1 ≠ key, t.sorted.filter _⟩

/-- **Inserting changes the value of one key.** -/
theorem find?_insert (t : Table κ ν) (key other : κ) (value : ν) :
    (t.insert key value).find? other = if other = key then some value else t.find? other := by
  obtain ⟨entries, sorted⟩ := t
  simp only [find?, insert]
  induction entries with
  | nil =>
    by_cases h : other = key <;> simp [put, List.lookup_cons, h, beq_eq_false_iff_ne.mpr]
  | cons a rest ih =>
    have ih := ih (List.pairwise_cons.mp sorted).2
    obtain ⟨k, v⟩ := a
    unfold put
    split
    · rw [List.lookup_cons]
      by_cases h : other = key <;> simp [h, beq_eq_false_iff_ne.mpr]
    · split
      · rename_i hgt
        rw [List.lookup_cons, List.lookup_cons, ih]
        by_cases h : other = key
        · subst h
          have : other ≠ k := fun h => KeyOrder.irrefl k (h ▸ hgt)
          simp [beq_eq_false_iff_ne.mpr this]
        · simp [h]
      · rename_i hle hge
        have := KeyOrder.connex hle hge
        dsimp only at this
        subst this
        rw [List.lookup_cons, List.lookup_cons]
        by_cases h : other = key <;> simp [h, beq_eq_false_iff_ne.mpr]

omit [DecidableLT κ] [KeyOrder κ] in
/-- **Erasing takes the value of one key.** -/
theorem find?_erase (t : Table κ ν) (key other : κ) :
    (t.erase key).find? other = if other = key then none else t.find? other := by
  obtain ⟨entries, sorted⟩ := t
  simp only [find?, erase]
  clear sorted
  induction entries with
  | nil => simp
  | cons a rest ih =>
    obtain ⟨k, v⟩ := a
    rw [List.filter_cons, List.lookup_cons]
    by_cases hk : k = key
    · rw [if_neg (by simp [hk]), ih]
      by_cases h : other = key <;> simp [h, hk, beq_eq_false_iff_ne.mpr]
    · rw [if_pos (by simp [hk]), List.lookup_cons, ih]
      by_cases h : other = k
      · simp [h, hk]
      · simp only [beq_eq_false_iff_ne.mpr h]

theorem find?_foldl_insert (pairs : List (κ × ν)) (t : Table κ ν) (key : κ) :
    (pairs.foldl (fun t e => t.insert e.1 e.2) t).find? key =
      (pairs.reverse.lookup key).or (t.find? key) := by
  induction pairs generalizing t with
  | nil => rfl
  | cons e rest ih =>
    have single : [e].lookup key = if key = e.1 then some e.2 else none := by
      rw [List.lookup_cons]
      by_cases h : key = e.1 <;> simp [h, beq_eq_false_iff_ne.mpr]
    rw [List.foldl_cons, ih, find?_insert, List.reverse_cons, List.lookup_append, single]
    by_cases h : key = e.1 <;> simp [h]

/-- **The last of several pairs of one key counts.** -/
theorem find?_ofList (pairs : List (κ × ν)) (key : κ) :
    (ofList pairs).find? key = pairs.reverse.lookup key := by
  unfold ofList
  rw [find?_foldl_insert]
  simp [find?, empty]

omit [DecidableLT κ] in
/-- **The entries of a table are the values it finds.** -/
theorem find?_eq_some_iff {t : Table κ ν} {key : κ} {value : ν} :
    t.find? key = some value ↔ (key, value) ∈ t.entries := by
  obtain ⟨entries, sorted⟩ := t
  simp only [find?]
  induction entries with
  | nil => simp
  | cons a rest ih =>
    obtain ⟨first, later⟩ := List.pairwise_cons.mp sorted
    obtain ⟨k, v⟩ := a
    rw [List.lookup_cons, List.mem_cons, Prod.mk.injEq]
    by_cases h : key = k
    · subst h
      have absent : (key, value) ∉ rest := fun mem => KeyOrder.irrefl key (first (key, value) mem)
      simp [absent, eq_comm]
    · simp [h, beq_eq_false_iff_ne.mpr h, ih later]

omit [DecidableLT κ] in
theorem mem_keys_iff {t : Table κ ν} {key : κ} : key ∈ t.keys ↔ (t.find? key).isSome := by
  rw [Option.isSome_iff_exists]
  simp only [find?_eq_some_iff, keys, List.mem_map, Prod.exists, exists_and_right, exists_eq_right]

theorem size_insert {t : Table κ ν} {key : κ} (h : t.find? key = none) (value : ν) :
    (t.insert key value).size = t.size + 1 := by
  obtain ⟨entries, sorted⟩ := t
  simp only [find?, insert, size] at h ⊢
  clear sorted
  induction entries with
  | nil => rfl
  | cons a rest ih =>
    obtain ⟨k, v⟩ := a
    rw [List.lookup_cons] at h
    by_cases hkey : key = k
    · simp [hkey] at h
    · simp only [beq_eq_false_iff_ne.mpr hkey] at h
      unfold put
      split
      · rfl
      · split
        · rw [List.length_cons, ih h, List.length_cons]
        · rename_i hle hge
          exact absurd (KeyOrder.connex hle hge) hkey

omit [DecidableEq κ] in
/-- A table gets longer by one key at most. -/
theorem size_insert_le (t : Table κ ν) (key : κ) (value : ν) :
    (t.insert key value).size ≤ t.size + 1 := by
  obtain ⟨entries, sorted⟩ := t
  simp only [insert, size]
  clear sorted
  induction entries with
  | nil => exact Nat.le_refl _
  | cons a rest ih =>
    unfold put
    split
    · exact Nat.le_refl _
    · split
      · exact Nat.succ_le_succ ih
      · exact Nat.le_succ _

omit [DecidableLT κ] in
theorem size_erase {t : Table κ ν} {key : κ} {value : ν} (h : t.find? key = some value) :
    (t.erase key).size + 1 = t.size := by
  obtain ⟨entries, sorted⟩ := t
  simp only [find?, erase, size] at h ⊢
  induction entries with
  | nil => simp at h
  | cons a rest ih =>
    obtain ⟨first, later⟩ := List.pairwise_cons.mp sorted
    obtain ⟨k, v⟩ := a
    rw [List.lookup_cons] at h
    rw [List.filter_cons, List.length_cons]
    by_cases hkey : key = k
    · -- the keys behind are greater, so none of them is erased
      subst hkey
      rw [if_neg (by simp), List.filter_eq_self.mpr fun e he => ?_]
      have : e.1 ≠ key := fun same => KeyOrder.irrefl key (by simpa [same] using first e he)
      simp [this]
    · simp only [beq_eq_false_iff_ne.mpr hkey] at h
      have ne : k ≠ key := fun same => hkey same.symm
      rw [if_pos (by simp [ne]), List.length_cons, ih later h]

end Table

end GuestHost
