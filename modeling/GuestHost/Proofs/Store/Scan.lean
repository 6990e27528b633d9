import GuestHost.Proofs.Exchange.Fresh
import GuestHost.Proofs.Store.Key
/-!
# What a scan returns

A scan walks the entries from the first key not before its start, and stops at the first key that
does not start so. Keys stand in their order, and there the keys with one start stand side by side,
`prefix_of_between`, so the walk meets all of them: `range_eq_filter`. What it returns then depends
on the entries under such keys alone, `range_congr`, whatever else is stored. A scan inside a name
space lists what is stored there, in order and without the name space, `mem_inSpace` and
`sorted_inSpace`; so a subset of the guest keys is exactly the latest value of each key that starts
as asked for, `Persistence.subset_latest`.
-/

namespace GuestHost

/-! ## Starts and the order of byte strings -/

namespace Bytes

variable {start key later : Bytes}

/-- No byte string comes before one of its starts. -/
theorem not_lt_of_prefix (h : start <+: key) : ¬ key < start := by
  obtain ⟨rest, rfl⟩ := h
  induction start with
  | nil => exact List.not_lt_nil _
  | cons b start ih =>
    rw [List.cons_append, List.cons_lt_cons_iff]
    rintro (lt | ⟨-, lt⟩)
    · exact absurd lt (UInt8.lt_irrefl b)
    · exact ih lt

/-- **What stands between a start and a byte string that starts so starts so too.** -/
theorem prefix_of_between (low : ¬ key < start) (lt : key < later) (h : start <+: later) :
    start <+: key := by
  induction start generalizing key later with
  | nil => exact List.nil_prefix
  | cons b start ih =>
    obtain ⟨rest, rfl⟩ := h
    cases key with
    | nil => exact absurd (List.nil_lt_cons _ _) low
    | cons c key =>
      rw [List.cons_lt_cons_iff] at low
      rw [List.cons_append, List.cons_lt_cons_iff] at lt
      -- the first byte can be neither less nor greater
      rcases lt with lt | ⟨rfl, lt⟩
      · exact absurd (.inl lt) low
      · have low : ¬ key < start := fun below => low (.inr ⟨rfl, below⟩)
        exact (List.prefix_cons_inj c).mpr (ih low lt (List.prefix_append start rest))

/-- Byte strings with one start stand as what comes behind it does. -/
theorem append_lt_append_iff (space : Bytes) : space ++ key < space ++ later ↔ key < later := by
  induction space with
  | nil => rfl
  | cons b space ih => simp [ih]

end Bytes

namespace Store

namespace Shelf

variable {start : Bytes} {entries : List (Bytes × Bytes)}

/-- Behind its start a walk that stops at the first other key misses none. -/
theorem takeWhile_eq_filter (sorted : entries.Pairwise fun a b => a.1 < b.1)
    (low : ∀ e ∈ entries, ¬ e.1 < start) :
    entries.takeWhile (fun e => start.isPrefixOf e.1) =
      entries.filter fun e => start.isPrefixOf e.1 := by
  induction entries with
  | nil => rfl
  | cons e rest ih =>
    obtain ⟨first, sorted⟩ := List.pairwise_cons.mp sorted
    obtain ⟨lowest, low⟩ := List.forall_mem_cons.mp low
    by_cases starts : start <+: e.1
    · rw [List.takeWhile_cons_of_pos (by simpa using starts),
        List.filter_cons_of_pos (by simpa using starts), ih sorted low]
    · have none : ∀ e' ∈ rest, ¬ start <+: e'.1 := fun e' mem starts' =>
        starts (Bytes.prefix_of_between lowest (first e' mem) starts')
      rw [List.takeWhile_cons_of_neg (by simpa using starts),
        List.filter_cons_of_neg (by simpa using starts), eq_comm, List.filter_eq_nil_iff]
      simpa using fun key value mem => none (key, value) mem

/-- **A scan meets every entry whose key starts so, and no other.** -/
theorem range_eq_filter (sorted : entries.Pairwise fun a b => a.1 < b.1) (start : Bytes) :
    range start entries = entries.filter fun e => start.isPrefixOf e.1 := by
  unfold range
  induction entries with
  | nil => rfl
  | cons e rest ih =>
    obtain ⟨first, later⟩ := List.pairwise_cons.mp sorted
    by_cases below : e.1 < start
    · have other : ¬ start <+: e.1 := fun starts => Bytes.not_lt_of_prefix starts below
      rw [List.dropWhile_cons_of_pos (by simpa using below), ih later,
        List.filter_cons_of_neg (by simpa using other)]
    · rw [List.dropWhile_cons_of_neg (by simpa using below)]
      refine takeWhile_eq_filter sorted (List.forall_mem_cons.mpr ⟨below, fun e' mem lt => ?_⟩)
      exact below (List.lt_trans (first e' mem) lt)

/-- The entries of a table that a scan returns. -/
def scanned (t : Table Bytes Bytes) (start : Bytes) : Table Bytes Bytes :=
  ⟨range start t.entries, range_eq_filter t.sorted start ▸ t.sorted.filter _⟩

/-- A scan finds what is stored under the keys that start so. -/
theorem find?_scanned (t : Table Bytes Bytes) (start key : Bytes) :
    (scanned t start).find? key = if start <+: key then t.find? key else none := by
  refine Option.ext fun value => ?_
  have entries : (scanned t start).entries = t.entries.filter fun e => start.isPrefixOf e.1 :=
    range_eq_filter t.sorted start
  rw [Table.find?_eq_some_iff, entries, List.mem_filter, ← Table.find?_eq_some_iff]
  split <;> simp_all

/-- **A scan depends on nothing but the entries whose keys start so.** -/
theorem range_congr {t u : Table Bytes Bytes}
    (same : ∀ key, start <+: key → t.find? key = u.find? key) :
    range start t.entries = range start u.entries := by
  have tables : scanned t start = scanned u start := by
    refine Table.ext_find? fun key => ?_
    rw [find?_scanned, find?_scanned]
    split
    · exact same key ‹_›
    · rfl
  exact congrArg Table.entries tables

/-! ## Scans inside a name space -/

variable {space key value : Bytes} {t : Table Bytes Bytes}

/-- What is stored under the keys of a name space with a given start, without the name space. -/
def inSpace (space start : Bytes) (t : Table Bytes Bytes) : List (Bytes × Bytes) :=
  (range (space ++ start) t.entries).map fun e => (e.1.drop space.length, e.2)

/-- A scan inside a name space meets keys of the name space only. -/
theorem exists_of_mem_range {e : Bytes × Bytes} (met : e ∈ range (space ++ start) t.entries) :
    ∃ key, e.1 = space ++ key ∧ start <+: key ∧ t.find? (space ++ key) = some e.2 := by
  rw [range_eq_filter t.sorted, List.mem_filter] at met
  obtain ⟨stored, starts⟩ := met
  obtain ⟨rest, spelled⟩ := List.isPrefixOf_iff_prefix.mp starts
  have spelled' : e.1 = space ++ (start ++ rest) := by rw [← spelled, List.append_assoc]
  refine ⟨start ++ rest, spelled', List.prefix_append start rest, ?_⟩
  rw [← spelled', Table.find?_eq_some_iff]
  exact stored

/-- **What is listed of a name space** is what is stored in it under the keys that start so. -/
theorem mem_inSpace :
    (key, value) ∈ inSpace space start t ↔
      start <+: key ∧ t.find? (space ++ key) = some value := by
  constructor
  · intro listed
    obtain ⟨e, met, same⟩ := List.mem_map.mp listed
    obtain ⟨full, spelled, starts, found⟩ := exists_of_mem_range met
    rw [spelled, List.drop_left] at same
    cases same
    exact ⟨starts, found⟩
  · rintro ⟨starts, found⟩
    have stored : (space ++ key, value) ∈ t.entries := Table.find?_eq_some_iff.mp found
    have starts' : space ++ start <+: space ++ key := (List.prefix_append_right_inj space).mpr starts
    have met : (space ++ key, value) ∈ range (space ++ start) t.entries := by
      rw [range_eq_filter t.sorted, List.mem_filter]
      exact ⟨stored, List.isPrefixOf_iff_prefix.mpr starts'⟩
    refine List.mem_map.mpr ⟨_, met, ?_⟩
    rw [List.drop_left]

/-- **The keys of a name space are listed in their order**, each of them once. -/
theorem sorted_inSpace : (inSpace space start t).Pairwise fun e later => e.1 < later.1 := by
  have sorted : (range (space ++ start) t.entries).Pairwise fun e later => e.1 < later.1 :=
    (scanned t (space ++ start)).sorted
  refine List.pairwise_map.mpr (sorted.imp_of_mem fun {e later} here there lt => ?_)
  obtain ⟨key, spelled, -⟩ := exists_of_mem_range here
  obtain ⟨key', spelled', -⟩ := exists_of_mem_range there
  rw [spelled, spelled', Bytes.append_lt_append_iff] at lt
  rwa [spelled, spelled', List.drop_left, List.drop_left]

end Shelf

/-! ## The keys of the guests -/

namespace Persistence

variable {s : Shelf} {start key : Bytes}

/-- A subset lists what is stored in the name space of the guests. -/
theorem subset_eq (unbroken : s.fails .scan (fullKey start) = false) :
    subset s start = .ok (Shelf.inSpace nameSpace start s.entries) := by
  have scanned : s.scan (fullKey start) = .ok (Shelf.range (fullKey start) s.entries.entries) := by
    rw [Shelf.scan, unbroken]
    rfl
  rw [subset, scanned]
  rfl

/-- Values set one after the other, until one cannot be. -/
def setAll (s : Shelf) (pairs : List (Bytes × Bytes)) : Except Error Shelf :=
  pairs.foldlM (fun s pair => set s pair.1 pair.2) s

/-- A store without faults takes all that is set. -/
theorem setAll_eq (contents : Table Bytes Bytes) (pairs : List (Bytes × Bytes)) :
    setAll ⟨contents, []⟩ pairs =
      .ok ⟨(pairs.map fun pair => (fullKey pair.1, pair.2)).foldl
        (fun t pair => t.insert pair.1 pair.2) contents, []⟩ := by
  unfold setAll
  induction pairs generalizing contents with
  | nil => rfl
  | cons pair rest ih =>
    have first : set ⟨contents, []⟩ pair.1 pair.2 =
        .ok ⟨contents.insert (fullKey pair.1) pair.2, []⟩ := rfl
    rw [List.foldlM_cons, first, List.map_cons, List.foldl_cons]
    exact ih (contents.insert (fullKey pair.1) pair.2)

/-- A key has the value that was set last, or the one that it had before. -/
theorem find?_setAll (contents : Table Bytes Bytes) (pairs : List (Bytes × Bytes)) (key : Bytes) :
    ((pairs.map fun pair => (fullKey pair.1, pair.2)).foldl
      (fun t pair => t.insert pair.1 pair.2) contents).find? (fullKey key) =
        (pairs.reverse.lookup key).or (contents.find? (fullKey key)) := by
  induction pairs generalizing contents with
  | nil => rfl
  | cons pair rest ih =>
    have same : fullKey key = fullKey pair.1 ↔ key = pair.1 := List.append_right_inj nameSpace
    rw [List.map_cons, List.foldl_cons, ih, Table.find?_insert, List.reverse_cons,
      List.lookup_append]
    -- what is set first counts where nothing is set later
    by_cases here : key = pair.1
    · rw [if_pos (same.mpr here), here, List.lookup_cons_self, Option.or_assoc, Option.some_or]
    · have differs : (key == pair.1) = false := beq_eq_false_iff_ne.mpr here
      rw [if_neg (mt same.mp here), List.lookup_cons, differs, List.lookup_nil, Option.or_none]

/-- **A scan is a filter.** Whatever a store without faults contains, and whatever the start, empty
or of the greatest bytes: a scan returns all entries whose keys start so and no others, in strictly
increasing order of their keys. So after any row of values set by guests a subset is exactly the
keys that start as asked for, each once and in order, with the value that was set last, or the one
that was there before if none was. -/
theorem subset_latest (contents : Table Bytes Bytes) :
    (∀ start, let found := contents.entries.filter fun e => start.isPrefixOf e.1
      Shelf.scan ⟨contents, []⟩ start = .ok found ∧
        found.Pairwise fun e later => e.1 < later.1) ∧
    ∀ pairs start, ∃ s listed, setAll ⟨contents, []⟩ pairs = .ok s ∧ subset s start = .ok listed ∧
      (listed.Pairwise fun pair later => pair.1 < later.1) ∧
      ∀ key value, (key, value) ∈ listed ↔ start <+: key ∧
        (pairs.reverse.lookup key).or (contents.find? (fullKey key)) = some value := by
  refine ⟨fun start => ⟨?_, contents.sorted.filter _⟩, fun pairs start => ?_⟩
  · have unbroken : Shelf.fails ⟨contents, []⟩ .scan start = false := rfl
    rw [Shelf.scan, unbroken, Shelf.range_eq_filter contents.sorted]
    rfl
  · refine ⟨_, _, setAll_eq contents pairs, subset_eq rfl, Shelf.sorted_inSpace, fun key value => ?_⟩
    rw [Shelf.mem_inSpace, ← fullKey, find?_setAll]

/-- Keys of the greatest byte are all listed, the latest value of each. -/
example : ((setAll .empty [([0xff, 0xff], [1]), ([0xff], [2]), ([0xfe], [3]), ([0xff], [4])]).bind
    fun s => subset s [0xff]) = .ok [([0xff], [4]), ([0xff, 0xff], [1])] := by
  decide

end Persistence

end Store

end GuestHost
