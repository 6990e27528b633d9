import GuestHost.Proofs.Exchange.Fresh
import GuestHost.Proofs.Posix.Gathering
/-!
# Reading vectors scatters them

A guest fills several ranges of its memory with one system call, which reads a file into one range
after the other and looks its table up again for each. Reading bit by bit is reading once, and
writing to range after range is dealing bytes out over the addresses of all of them,
`Memory.scatter`; so as long as no range touches the table, the loop comes to one reading dealt out,
`run_readVectors_scattered`. Ranges that stand apart from each other keep what they are dealt,
`map_byteAt_scatter`, which makes the system call the mirror image of the one that gathers:
`read_scatters`.
-/

namespace GuestHost

open Stateful Exchange

/-! ## Bytes dealt out over addresses -/

namespace Memory

variable {m : Memory} {addresses : List Nat}

/-- Bytes put one by one at addresses, as far as there are both. -/
def scatter : Memory → List Nat → Bytes → Memory
  | m, address :: addresses, b :: bytes => scatter (m.put address b) addresses bytes
  | m, _, _ => m

theorem scatter_nil (m : Memory) (addresses : List Nat) : m.scatter addresses [] = m := by
  cases addresses <;> rfl

theorem scatter_cons (m : Memory) (address : Nat) (addresses : List Nat) (b : UInt8)
    (bytes : Bytes) :
    m.scatter (address :: addresses) (b :: bytes) = (m.put address b).scatter addresses bytes := rfl

@[simp] theorem size_scatter (m : Memory) (addresses : List Nat) (bytes : Bytes) :
    (m.scatter addresses bytes).size = m.size := by
  induction addresses generalizing m bytes with
  | nil => rfl
  | cons address rest ih =>
    cases bytes with
    | nil => rfl
    | cons b bytes => rw [scatter_cons, ih, size_put]

theorem scatter_append (m : Memory) (addresses more : List Nat) (bytes : Bytes) :
    m.scatter (addresses ++ more) bytes =
      (m.scatter addresses bytes).scatter more (bytes.drop addresses.length) := by
  induction addresses generalizing m bytes with
  | nil => rfl
  | cons address rest ih =>
    cases bytes with
    | nil => rw [scatter_nil, scatter_nil, List.drop_nil, scatter_nil]
    | cons b bytes =>
      rw [List.cons_append, scatter_cons, ih, scatter_cons, List.length_cons, List.drop_succ_cons]

/-- A range is written by dealing the bytes out over its addresses. -/
theorem overwrite_eq_scatter (m : Memory) (offset length : Nat) (bytes : Bytes) :
    m.overwrite offset (bytes.take length) = m.scatter (List.range' offset length) bytes := by
  induction length generalizing m offset bytes with
  | zero => rfl
  | succ length ih =>
    cases bytes with
    | nil => rfl
    | cons b bytes => rw [List.take_succ_cons, overwrite, ih, List.range'_succ, scatter_cons]

/-- Bytes that are dealt out change no other addresses. -/
theorem byteAt_scatter_of_not_mem (inside : ∀ address ∈ addresses, address < m.size) {j : Nat}
    (other : j ∉ addresses) (bytes : Bytes) :
    (m.scatter addresses bytes).byteAt j = m.byteAt j := by
  induction addresses generalizing m bytes with
  | nil => rfl
  | cons address rest ih =>
    cases bytes with
    | nil => rfl
    | cons b bytes =>
      obtain ⟨first, inside⟩ := List.forall_mem_cons.mp inside
      have apart : address ≠ j := fun same => other (same ▸ List.mem_cons_self)
      have inside' : ∀ a ∈ rest, a < (m.put address b).size := inside
      rw [scatter_cons, ih inside' (fun mem => other (List.mem_cons_of_mem _ mem)),
        byteAt_put m first, if_neg apart]

/-- **Addresses that are all different keep what they are dealt**, and those behind the last byte
keep what they had. -/
theorem map_byteAt_scatter (inside : ∀ address ∈ addresses, address < m.size)
    (distinct : addresses.Nodup) (bytes : Bytes) :
    addresses.map (m.scatter addresses bytes).byteAt =
      bytes.take addresses.length ++ (addresses.map m.byteAt).drop bytes.length := by
  induction addresses generalizing m bytes with
  | nil => simp
  | cons address rest ih =>
    cases bytes with
    | nil => rfl
    | cons b bytes =>
      obtain ⟨first, inside⟩ := List.forall_mem_cons.mp inside
      obtain ⟨new, distinct⟩ := List.nodup_cons.mp distinct
      have inside' : ∀ a ∈ rest, a < (m.put address b).size := inside
      have here : ((m.put address b).scatter rest bytes).byteAt address = b := by
        rw [byteAt_scatter_of_not_mem inside' new, byteAt_put m first, if_pos rfl]
      have behind : rest.map (m.put address b).byteAt = rest.map m.byteAt := by
        refine List.map_congr_left fun a mem => ?_
        rw [byteAt_put m first, if_neg fun same : address = a => new (same ▸ mem)]
      rw [scatter_cons, List.map_cons, here, ih inside' distinct, behind]
      rfl

end Memory

namespace Posix

/-! ## Processes -/

theorem Process.withFile_self {p : Process} {d : Nat} {file : File}
    (opened : p.file? d = some file) : p.withFile d file = p := by
  have same : p.files.insert d file = p.files := by
    refine Table.ext_find? fun key => ?_
    rw [Table.find?_insert]
    split
    · rename_i here
      rw [here]
      exact opened.symm
    · rfl
  rw [withFile, same]

theorem Process.withFile_withFile (p : Process) (d : Nat) (file file' : File) :
    (p.withFile d file).withFile d file' = p.withFile d file' := by
  have same : (p.files.insert d file).insert d file' = p.files.insert d file' := by
    refine Table.ext_find? fun key => ?_
    simp only [Table.find?_insert]
    split <;> rfl
  simp only [withFile, same]

/-! ## Content that is there to be read -/

variable {w : World} {content : Bytes} {taken : Option Bytes} {source : Source}

/-- The content of a file is there to be read: it has been taken from its source, or is to be taken
from a memory buffer that holds it. -/
inductive Source.Offers (w : World) (content : Bytes) : Source → Option Bytes → Prop where
  | taken (source : Source) : Offers w content source (some content)
  | held {place : Place} : w.Has place content → Offers w content (.buffer place) none

/-- Reading a memory buffer where it is kept changes nothing. -/
theorem World.useAt_read {place : Place} (h : w.Has place content) :
    w.useAt place Buffer.read = (.ok content, w) := by
  obtain ⟨b, held, rfl⟩ := h
  have again : w.registry.put place (Buffer.memory b) = w.registry := Registry.put_self held
  rw [World.useAt, Registry.useAt_of_at? held, Buffer.read, again]
  rfl

/-- **A file whose content is there to be read gives what follows its position.** -/
theorem Source.Offers.read (offers : source.Offers w content taken) (position length : Nat) :
    (source.file taken position).read length w = (.ok (File.next content position length),
      source.file (some content) (position + (File.next content position length).length), w) := by
  cases offers with
  | taken source => cases source <;> rfl
  | held h =>
    simp only [Source.file, File.read, World.useAt_read h]

namespace Syscall

variable {site : Site} {m m' : Memory} {table index count position : Nat}

/-! ## Addresses that vectors cover -/

/-- The addresses in a range, which is given by the first of them and their number. -/
def cells (range : Nat × Nat) : List Nat := List.range' range.1 range.2

instance (range other : Nat × Nat) : Decidable ((cells range).Disjoint (cells other)) :=
  decidable_of_iff (∀ j ∈ cells range, j ∉ cells other) Iff.rfl

/-- The addresses in ranges one after the other. -/
def covered (ranges : List (Nat × Nat)) : List Nat := ranges.flatMap cells

theorem covered_cons (v : Nat × Nat) (ranges : List (Nat × Nat)) :
    covered (v :: ranges) = cells v ++ covered ranges := List.flatMap_cons

theorem mem_cells {range : Nat × Nat} {j : Nat} :
    j ∈ cells range ↔ range.1 ≤ j ∧ j < range.1 + range.2 := List.mem_range'_1

theorem gather_eq_map (m : Memory) (ranges : List (Nat × Nat)) :
    gather m ranges = (covered ranges).map m.byteAt := List.map_flatMap.symm

theorem length_covered (ranges : List (Nat × Nat)) :
    (covered ranges).length = (ranges.map Prod.snd).sum := by
  simp [covered, cells, List.length_flatMap]

theorem lt_size_of_mem_covered {ranges : List (Nat × Nat)}
    (inside : ∀ v ∈ ranges, m.Holds v.1 v.2) : ∀ j ∈ covered ranges, j < m.size := by
  intro j mem
  obtain ⟨v, listed, within⟩ := List.mem_flatMap.mp mem
  exact Nat.lt_of_lt_of_le (mem_cells.mp within).2 (inside v listed)

theorem nodup_covered {ranges : List (Nat × Nat)}
    (apart : ranges.Pairwise fun v v' => (cells v).Disjoint (cells v')) :
    (covered ranges).Nodup :=
  List.nodup_flatMap.mpr ⟨fun _ _ => List.nodup_range', apart⟩

/-- Ranges that stand apart from each other and from another one have no more bytes together than
there are beside it. -/
theorem sum_add_le {ranges : List (Nat × Nat)} {other : Nat × Nat}
    (inside : ∀ v ∈ other :: ranges, m.Holds v.1 v.2)
    (apart : (other :: ranges).Pairwise fun v v' => (cells v).Disjoint (cells v')) :
    other.2 + (ranges.map Prod.snd).sum ≤ m.size := by
  have within : covered (other :: ranges) ⊆ List.range m.size :=
    fun j mem => List.mem_range.mpr (lt_size_of_mem_covered inside j mem)
  have le := ((nodup_covered apart).subperm within).length_le
  rwa [length_covered, List.length_range, List.map_cons, List.sum_cons] at le

/-- Tables that are the same byte by byte have the same vectors. -/
theorem vectorsAt_congr
    (same : ∀ j ∈ cells (table, 8 * (index + count)), m'.byteAt j = m.byteAt j) :
    vectorsAt m' table index count = vectorsAt m table index count := by
  refine List.map_congr_left fun i within => ?_
  obtain ⟨low, high⟩ := List.mem_range'_1.mp within
  have bytes (offset : Nat) (from_table : table ≤ offset)
      (inside : offset + 4 ≤ table + 8 * (index + count)) :
      m'.bytesAt offset 4 = m.bytesAt offset 4 :=
    Memory.bytesAt_congr fun j le lt => same j (mem_cells.mpr ⟨by omega, by omega⟩)
  unfold vectorAt
  dsimp only
  rw [bytes _ (by omega) (by omega), bytes _ (by omega) (by omega)]

/-! ## The loop -/

/-- **A vector is dealt what follows the position.** If it does not get as much as it can take, it
is the last. -/
theorem run_readVectors_dealt {d left done address length : Nat}
    (looked : (vector table index).run site = (.ok (address, length), site)) (wanted : length ≠ 0)
    (inside : site.memory.Holds address length)
    (opened : site.process.file? d = some (source.file taken position))
    (offers : source.Offers site.world content taken) :
    let n := min (content.length - position) length
    let after := { site with
      memory := site.memory.scatter (cells (address, length)) (content.drop position)
      process := site.process.withFile d (source.file (some content) (position + n)) }
    (readVectors d table (left + 1) index done).run site =
      if n < length then (.ok (.ok (done + n)), after)
      else (readVectors d table left (index + 1) (done + n)).run after := by
  intro n after
  have count : (File.next content position length).length = n :=
    File.length_next content position length
  have dealt : site.memory.overwrite address (File.next content position length) =
      site.memory.scatter (cells (address, length)) (content.drop position) :=
    Memory.overwrite_eq_scatter _ _ _ _
  rw [run_readVectors looked wanted opened inside, Reading.perform]
  dsimp only
  rw [offers.read position length]
  dsimp only
  rw [count, dealt]

/-- **Reading into vectors one after the other is one reading**, dealt out over the addresses that
they cover. -/
theorem run_readVectors_scattered {d left done : Nat} (most : site.memory.size ≤ maxWord + 1)
    (entries : ∀ i, index ≤ i → i < index + left → site.memory.Holds (table + 8 * i) 8)
    (inside : ∀ v ∈ vectorsAt site.memory table index left, site.memory.Holds v.1 v.2)
    (apart : ∀ v ∈ vectorsAt site.memory table index left,
      (cells v).Disjoint (cells (table, 8 * (index + left))))
    (opened : site.process.file? d = some (source.file taken position))
    (offers : source.Offers site.world content taken) :
    let vectors := vectorsAt site.memory table index left
    let n := min (content.length - position) (vectors.map Prod.snd).sum
    ∃ taken', source.Offers site.world content taken' ∧
      (readVectors d table left index done).run site = (.ok (.ok (done + n)), { site with
        memory := site.memory.scatter (covered vectors) (content.drop position)
        process := site.process.withFile d (source.file taken' (position + n)) }) := by
  induction left generalizing site index done taken position with
  | zero =>
    refine ⟨taken, offers, ?_⟩
    have none : min (content.length - position)
      ((vectorsAt site.memory table index 0).map Prod.snd).sum = 0 := Nat.min_zero _
    rw [none, Nat.add_zero, Nat.add_zero, Process.withFile_self opened]
    rfl
  | succ left ih =>
    obtain ⟨here, later⟩ := List.forall_mem_cons.mp inside
    obtain ⟨off, offLater⟩ := List.forall_mem_cons.mp apart
    have shift : index + (left + 1) = index + 1 + left := by omega
    have entries' : ∀ i, index + 1 ≤ i → i < index + 1 + left →
        site.memory.Holds (table + 8 * i) 8 := fun i le lt => entries i (by omega) (by omega)
    have looked := run_vector most (entries index (Nat.le_refl _) (by omega))
    have row : vectorsAt site.memory table index (left + 1) =
      vectorAt site.memory table index :: vectorsAt site.memory table (index + 1) left := rfl
    dsimp only
    rw [row, covered_cons, List.map_cons, List.sum_cons]
    rw [shift] at off offLater
    revert here off looked
    obtain ⟨address, length⟩ := vectorAt site.memory table index
    intro here off looked
    by_cases empty : length = 0
    · subst empty
      rw [run_readVectors_empty looked, Nat.zero_add]
      exact ih most entries' later offLater opened offers
    · have dealt := @run_readVectors_dealt content taken source site table index position d left
        done address length looked empty here opened offers
      have spread (ranges : List (Nat × Nat)) :
          site.memory.scatter (cells (address, length) ++ covered ranges) (content.drop position) =
            (site.memory.scatter (cells (address, length)) (content.drop position)).scatter
              (covered ranges) (content.drop (position + length)) := by
        rw [Memory.scatter_append, List.drop_drop, cells, List.length_range']
      rw [dealt, spread]
      by_cases short : min (content.length - position) length < length
      · -- the content ends here, and nothing is left for the others
        refine ⟨some content, .taken source, ?_⟩
        rw [if_pos short, List.drop_eq_nil_of_le (show content.length ≤ position + length by omega),
          Memory.scatter_nil]
        have all (more : Nat) : min (content.length - position) (length + more) =
            min (content.length - position) length := by omega
        rw [all]
      · have full : min (content.length - position) length = length := by omega
        rw [if_neg short, full]
        let after : Site := { site with
          memory := site.memory.scatter (cells (address, length)) (content.drop position)
          process := site.process.withFile d (source.file (some content) (position + length)) }
        have size : after.memory.size = site.memory.size := Memory.size_scatter _ _ _
        have holds (offset length : Nat) : after.memory.Holds offset length ↔
            site.memory.Holds offset length := by rw [Memory.Holds, size, Memory.Holds]
        -- the table is as it was
        have same : vectorsAt after.memory table (index + 1) left =
            vectorsAt site.memory table (index + 1) left :=
          vectorsAt_congr fun j mem => Memory.byteAt_scatter_of_not_mem
            (fun a within => Nat.lt_of_lt_of_le (mem_cells.mp within).2 here)
            (fun within => off within mem) _
        have reopened : after.process.file? d =
            some (source.file (some content) (position + length)) := by
          rw [Process.file?_withFile, if_pos rfl]
        obtain ⟨taken', offers', run⟩ := @ih (some content) after (index + 1) (position + length)
          (done + length) (by rwa [size]) (fun i le lt => (holds _ _).mpr (entries' i le lt))
          (by
            rw [same]
            exact fun v mem => (holds _ _).mpr (later v mem))
          (by
            rw [same]
            exact offLater)
          reopened (.taken source)
        refine ⟨taken', offers', ?_⟩
        rw [same] at run
        have count (more : Nat) : min (content.length - position) (length + more) =
            length + min (content.length - (position + length)) more := by omega
        rw [run, count, Process.withFile_withFile, Nat.add_assoc, Nat.add_assoc]

/-! ## The system call -/

/-- **Reading vectors scatters exactly.** A guest hands over a table of vectors that are in memory
with their entries, the address of a word in memory, and a descriptor that stands for a file whose
content is there to be read. The vectors have no addresses in common with each other, with the
table or with the word. Then the system call succeeds. The vectors have the content from the
position of the file on, in the order of the table and as much of it as they can take, and behind
that what they had before; the word is the number of these bytes, and by this number the file has
gone on; no other byte of memory and nothing else has changed. -/
theorem read_scatters {d table count result : UInt32} (most : site.memory.size ≤ maxWord + 1)
    (entries : ∀ i < count.toNat, site.memory.Holds (table.toNat + 8 * i) 8)
    (inside : ∀ v ∈ vectorsAt site.memory table.toNat 0 count.toNat, site.memory.Holds v.1 v.2)
    (room : site.memory.Holds result.toNat 4)
    (apart : (vectorsAt site.memory table.toNat 0 count.toNat).Pairwise
      fun v v' => (cells v).Disjoint (cells v'))
    (off : ∀ v ∈ vectorsAt site.memory table.toNat 0 count.toNat,
      (cells v).Disjoint (cells (table.toNat, 8 * count.toNat)) ∧
        (cells v).Disjoint (cells (result.toNat, 4)))
    (opened : site.process.file? d.toNat = some (source.file taken position))
    (offers : source.Offers site.world content taken) :
    let passing := site.passing [.i32 d, .i32 table, .i32 count, .i32 result]
    let vectors := vectorsAt site.memory table.toNat 0 count.toNat
    let n := min (content.length - position) (vectors.map Prod.snd).sum
    ∃ memory taken', (answered read).run passing = (.ok Errno.success.code, { passing with
        memory := memory
        process := site.process.withFile d.toNat (source.file taken' (position + n)) }) ∧
      source.Offers site.world content taken' ∧
      gather memory vectors =
        (content.drop position).take n ++ (gather site.memory vectors).drop n ∧
      memory.readWord 4 result.toNat = .ok n ∧
      memory.size = site.memory.size ∧
      ∀ j, j ∉ covered vectors → j ∉ cells (result.toNat, 4) →
        memory.byteAt j = site.memory.byteAt j := by
  intro passing vectors n
  have within : ∀ j ∈ covered vectors, j < site.memory.size := lt_size_of_mem_covered inside
  have entries' : ∀ i, 0 ≤ i → i < 0 + count.toNat →
      site.memory.Holds (table.toNat + 8 * i) 8 := fun i _ lt => entries i (by omega)
  have offTable : ∀ v ∈ vectors, (cells v).Disjoint (cells (table.toNat, 8 * (0 + count.toNat))) :=
    fun v mem => (Nat.zero_add count.toNat).symm ▸ (off v mem).1
  let dealt := site.memory.scatter (covered vectors) (content.drop position)
  have room' : dealt.Holds result.toNat 4 := by
    rw [Memory.Holds, Memory.size_scatter]
    exact room
  have put : dealt.Holds result.toNat (Bytes.ofWord 4 n).length := by
    rwa [Bytes.length_ofWord]
  -- the vectors leave room for the word, so what they take is no more than a word can tell
  have word : n ≤ maxWord := by
    have beside := @sum_add_le site.memory vectors (result.toNat, 4)
      (List.forall_mem_cons.mpr ⟨room, inside⟩)
      (List.pairwise_cons.mpr ⟨fun v mem => List.disjoint_symm (off v mem).2, apart⟩)
    have le : n ≤ (vectors.map Prod.snd).sum := Nat.min_le_right _ _
    dsimp only at beside
    omega
  obtain ⟨taken', offers', run⟩ := @run_readVectors_scattered content taken source passing
    table.toNat 0 position d.toNat count.toNat 0 most entries' inside offTable opened offers
  let filled : Site := { passing with
    memory := dealt
    process := site.process.withFile d.toNat (source.file taken' (position + n)) }
  have filling : (readVectors d.toNat table.toNat count.toNat 0 0).run passing =
      (.ok (.ok n), filled) := by
    rw [run, Nat.zero_add]
    rfl
  refine ⟨dealt.overwrite result.toNat (Bytes.ofWord 4 n), taken', run_answered_of_ok ?_, offers',
    ?_, Memory.readWord_overwrite room' word, ?_, fun j outside elsewhere => ?_⟩
  · rw [run_read rfl, filling]
    dsimp only
    rw [run_store_return, if_pos (show filled.memory.Holds result.toNat 4 from room')]
  · -- the word is put beside the vectors
    have kept : gather (dealt.overwrite result.toNat (Bytes.ofWord 4 n)) vectors =
        gather dealt vectors := by
      rw [gather_eq_map, gather_eq_map]
      refine List.map_congr_left fun j mem => Memory.byteAt_overwrite put ?_
      obtain ⟨v, listed, here⟩ := List.mem_flatMap.mp mem
      have beside : j ∉ cells (result.toNat, 4) := fun there => (off v listed).2 here there
      rw [mem_cells] at beside
      rw [Bytes.length_ofWord]
      omega
    rw [kept, gather_eq_map, Memory.map_byteAt_scatter within (nodup_covered apart),
      ← gather_eq_map, length_covered]
    have length := length_gather site.memory vectors
    refine congrArg₂ (· ++ ·) (List.take_eq_take_iff.mpr ?_) (List.drop_eq_drop_iff.mpr ?_)
    · rw [List.length_drop]
      omega
    · rw [List.length_drop, length]
      omega
  · rw [Memory.size_overwrite, Memory.size_scatter]
  · rw [mem_cells] at elsewhere
    rw [Memory.byteAt_overwrite put (by rw [Bytes.length_ofWord]; omega),
      Memory.byteAt_scatter_of_not_mem within outside]

/-- A process whose standard input is a memory buffer with five bytes, and a table of three vectors:
one of two bytes, an empty one, and one of five. -/
def dealing : Site where
  arguments := []
  memory := .ofBytes ([24, 0, 0, 0, 2, 0, 0, 0, 0, 0, 0, 0, 0, 0, 0, 0, 27, 0, 0, 0, 5, 0, 0, 0] ++
    [1, 2, 3, 4, 5, 6, 7, 8])
  invocation := (Context.top "reader" "run").toInvocation
  process := Process.unbound.withFile 0 (.inputOf 0)
  world := ((World.fresh .offline 0).register
    (.memory (.ofContent [0x61, 0x62, 0x63, 0x64, 0x65]))).2

/-- The last vector gets the three bytes that the first has left. Their number is put over the entry
of the empty one. -/
theorem read_scatters_short : ∃ memory taken,
    (answered read).run (dealing.passing [.i32 0, .i32 0, .i32 3, .i32 8]) =
      (.ok Errno.success.code, { dealing.passing [.i32 0, .i32 0, .i32 3, .i32 8] with
        memory := memory
        process := dealing.process.withFile 0 (.input 0 taken 5) }) ∧
      gather memory [(24, 2), (0, 0), (27, 5)] = [0x61, 0x62, 0x63, 0x64, 0x65, 7, 8] ∧
      memory.readWord 4 8 = .ok 5 ∧ memory.byteAt 26 = 3 := by
  have vectors : vectorsAt dealing.memory (0 : UInt32).toNat 0 (3 : UInt32).toNat =
      [(24, 2), (0, 0), (27, 5)] := by decide +kernel
  have before : gather dealing.memory [(24, 2), (0, 0), (27, 5)] = [1, 2, 4, 5, 6, 7, 8] := by
    decide +kernel
  have between : dealing.memory.byteAt 26 = 3 := by decide +kernel
  obtain ⟨memory, taken, run, -, bytes, total, -, rest⟩ := @read_scatters
    [0x61, 0x62, 0x63, 0x64, 0x65] none (.buffer 0) dealing 0 0 0 3 8 (by decide) (by decide)
    (by rw [vectors]; decide) (by decide) (by rw [vectors]; decide) (by rw [vectors]; decide) rfl
    (.held ⟨_, rfl, rfl⟩)
  rw [vectors] at run bytes total rest
  rw [before] at bytes
  exact ⟨memory, taken, run, bytes, total, (rest 26 (by decide) (by decide)).trans between⟩

end Syscall

end Posix

end GuestHost
