import GuestHost.Proofs.Posix.Losses
/-!
# Counts that wrap around

Writing vectors counts their bytes on and hands the count over in a word. A table may name one range
over and over, so the count is not bounded by the size of memory, and nothing keeps it in a word:
what the guest finds is the remainder. `counted_eq_some_iff` tells the count behind each vector,
`success_iff` when writing succeeds, and `count_wraps_iff` when the word is not the number of bytes
that the file was given.
-/

namespace GuestHost

open Stateful Exchange

namespace Posix

namespace Syscall

variable {site : Site} {d table left index written n : Nat} {file : File}

/-! ## Descriptors that take nothing -/

/-- The descriptor stands for a file that takes what is written to it. -/
def Takes (site : Site) (d : Nat) : Prop :=
  ∃ file, site.process.file? d = some file ∧ file.takes site.world.registry = true

/-- Without a file that takes what is written no vector is counted. -/
theorem run_writeVectors_refused (refuses : ¬ Takes site d) (table left index written n : Nat) :
    ((writeVectors d table (left + 1) index written).run site).1 ≠ .ok (.ok n) := by
  obtain ⟨e, run⟩ := run_writeVectors_cons d table index written site
  rw [run]
  intro same
  cases fetched : vectorBytes site.memory table index with
  | none =>
    rw [fetched] at same
    cases same
  | some bytes =>
    cases opened : site.process.file? d with
    | none =>
      rw [fetched, opened] at same
      cases same
    | some file =>
      have refuses' : ¬ file.takes (heard site.invocation d site.world bytes).registry = true := by
        rw [registry_heard]
        exact fun takes => refuses ⟨file, opened, takes⟩
      obtain ⟨e, refused⟩ := File.write_of_refuses refuses' bytes
      rw [fetched, opened] at same
      dsimp only at same
      rw [refused] at same
      cases same

/-! ## The count on the way -/

/-- The first vectors of a table are those of a shorter one. -/
theorem gathered_of_le (m : Memory) (table index : Nat) {k left : Nat} (le : k ≤ left) :
    gathered m table k index = (gathered m table left index).take k := by
  induction k generalizing left index with
  | zero => rfl
  | succ k ih =>
    obtain ⟨left, rfl⟩ : ∃ rest, left = rest + 1 := ⟨left - 1, by omega⟩
    rw [gathered, gathered]
    cases vectorBytes m table index with
    | none => rfl
    | some bytes => rw [List.take_succ_cons, ih (index + 1) (Nat.le_of_succ_le_succ le)]

/-- **Writing more vectors goes on where writing the first has come to.** -/
theorem run_writeVectors_add (d table k left index written : Nat) (site : Site) :
    (writeVectors d table (k + left) index written).run site =
      match (writeVectors d table k index written).run site with
      | (.ok (.ok n), mid) => (writeVectors d table left (index + k) n).run mid
      | stopped => stopped := by
  induction k generalizing site index written with
  | zero => rw [Nat.zero_add]; rfl
  | succ k ih =>
    obtain ⟨e, run⟩ := run_writeVectors_cons d table index written site
    rw [Nat.add_right_comm, run, run]
    cases vectorBytes site.memory table index with
    | none => rfl
    | some bytes =>
      cases site.process.file? d with
      | none => rfl
      | some file =>
        dsimp only
        cases (file.write bytes (heard site.invocation d site.world bytes)).1 with
        | error e => rfl
        | ok n =>
          dsimp only
          rw [ih, Nat.add_assoc index, Nat.add_comm 1 k]

/-- The count of a writing behind its first `k` vectors, if it gets there. -/
def counted (site : Site) (d table k : Nat) : Option Nat :=
  match ((writeVectors d table k 0 0).run site).1 with
  | .ok (.ok n) => some n
  | _ => none

theorem counted_eq_some {k : Nat} :
    counted site d table k = some n ↔ ((writeVectors d table k 0 0).run site).1 = .ok (.ok n) := by
  unfold counted
  rcases ((writeVectors d table k 0 0).run site).1 with e | errno | m
  · simp
  · simp
  · simp

/-- **The count behind some vectors is the number of their bytes**, however great. -/
theorem counted_eq_some_iff {k count : Nat} (le : k ≤ count) :
    let vectors := gathered site.memory table count 0
    counted site d table k = some n ↔
      k ≤ vectors.length ∧ (k = 0 ∨ Takes site d) ∧ n = (vectors.take k).flatten.length := by
  intro vectors
  rw [counted_eq_some]
  by_cases taken : Takes site d
  · obtain ⟨file, opened, takes⟩ := id taken
    obtain ⟨outcome, run, counts⟩ := run_writeVectors_handed opened takes table k 0 0
    have reaches : (vectors.take k).length = k ↔ k ≤ vectors.length := by
      rw [List.length_take]
      omega
    have known : k = 0 ∨ Takes site d := .inr taken
    rw [run, counts, gathered_of_le _ _ _ le, reaches, Nat.zero_add, and_iff_right known]
  · cases k with
    | zero =>
      have none : ((writeVectors d table 0 0 0).run site).1 = .ok (.ok 0) := rfl
      rw [none]
      simp [eq_comm]
    | succ k =>
      exact iff_of_false (run_writeVectors_refused taken table k 0 0 n)
        fun all => all.2.1.elim (Nat.succ_ne_zero k) taken

/-- The count behind all vectors is the total. -/
theorem counted_all_iff :
    counted site d table left = some n ↔
      (gathered site.memory table left 0).length = left ∧ (left = 0 ∨ Takes site d) ∧
        n = (gathered site.memory table left 0).flatten.length := by
  have le := length_gathered_le site.memory table left 0
  refine (counted_eq_some_iff (Nat.le_refl left)).trans ?_
  rw [List.take_of_length_le le]
  exact and_congr_left' ⟨Nat.le_antisymm le, Nat.le_of_eq ∘ Eq.symm⟩

/-- **The count passes a number on the way** exactly if the total does, in a file that takes what is
written to it. -/
theorem counted_gt_iff {count most : Nat} :
    (∃ k ≤ count, ∃ n, counted site d table k = some n ∧ most < n) ↔
      Takes site d ∧ most < (gathered site.memory table count 0).flatten.length := by
  constructor
  · rintro ⟨k, le, n, there, lt⟩
    obtain ⟨-, known, rfl⟩ := (counted_eq_some_iff le).mp there
    have whole := congrArg (fun vectors => vectors.flatten.length)
      (List.take_append_drop k (gathered site.memory table count 0))
    simp only [List.flatten_append, List.length_append] at whole
    refine ⟨known.resolve_left ?_, by omega⟩
    rintro rfl
    exact Nat.not_lt_zero _ lt
  · rintro ⟨taken, lt⟩
    refine ⟨_, length_gathered_le _ _ _ _, _, (counted_eq_some_iff (length_gathered_le _ _ _ _)).mpr
      ⟨Nat.le_refl _, .inr taken, rfl⟩, ?_⟩
    rwa [List.take_length]

/-- The writing of all vectors goes on from the count behind some of them. -/
theorem counted_goes_on {k count : Nat} (le : k ≤ count) (there : counted site d table k = some n) :
    ∃ mid, (writeVectors d table count 0 0).run site =
      (writeVectors d table (count - k) k n).run mid := by
  have split := run_writeVectors_add d table k (count - k) 0 0 site
  rw [Nat.add_sub_cancel' le, Nat.zero_add] at split
  have come := counted_eq_some.mp there
  rcases first : (writeVectors d table k 0 0).run site with ⟨outcome, mid⟩
  rw [first] at come split
  obtain rfl : outcome = .ok (.ok n) := come
  exact ⟨mid, split⟩

/-- A writing that has counted all its vectors has passed them to its file, and changed nothing
but the world. -/
theorem run_writeVectors_of_counted (there : counted site d table left = some n) :
    ∃ world, (writeVectors d table left 0 0).run site =
        (.ok (.ok n), { site with world := world }) ∧
      ∀ file, site.process.file? d = some file →
        world = (gathered site.memory table left 0).foldl (handed site.invocation d file)
          site.world := by
  have come := counted_eq_some.mp there
  by_cases taken : Takes site d
  · obtain ⟨file, opened, takes⟩ := taken
    obtain ⟨outcome, run, -⟩ := run_writeVectors_handed opened takes table left 0 0
    rw [run] at come
    obtain rfl : outcome = .ok (.ok n) := come
    refine ⟨_, run, fun other same => ?_⟩
    obtain rfl := Option.some.inj (opened.symm.trans same)
    rfl
  · cases left with
    | zero =>
      cases come
      exact ⟨site.world, rfl, fun _ _ => rfl⟩
    | succ left => exact absurd come (run_writeVectors_refused taken table left 0 0 n)

/-! ## The count that the guest finds -/

/-- **When writing succeeds**: all vectors are in memory, the file takes them if there are any, and
there is room for the count. -/
theorem success_iff {d table count result : UInt32} :
    ((answered write).run (site.passing [.i32 d, .i32 table, .i32 count, .i32 result])).1 =
        .ok Errno.success.code ↔
      (gathered site.memory table.toNat count.toNat 0).length = count.toNat ∧
        (count.toNat = 0 ∨ Takes site d.toNat) ∧ site.memory.Holds result.toNat 4 := by
  let passing := site.passing [.i32 d, .i32 table, .i32 count, .i32 result]
  have counts := fun n => @counted_all_iff passing d.toNat table.toNat count.toNat n
  rcases run : (writeVectors d.toNat table.toNat count.toNat 0 0).run passing with ⟨outcome, after⟩
  have come (n : Nat) :
      outcome = .ok (.ok n) ↔ counted passing d.toNat table.toNat count.toNat = some n := by
    rw [counted_eq_some, run]
  have kept (n : Nat) (there : counted passing d.toNat table.toNat count.toNat = some n) :
      after.memory = site.memory := by
    obtain ⟨world, same, -⟩ := run_writeVectors_of_counted there
    rw [run] at same
    exact congrArg (fun done => done.2.memory) same
  have success := (@success_write_iff passing d table count result after outcome rfl run).1
  rw [answered_success_iff, success]
  constructor
  · rintro ⟨⟨n, whole⟩, room⟩
    have there := (come n).mp whole
    obtain ⟨whole, known, -⟩ := (counts n).mp there
    exact ⟨whole, known, kept n there ▸ room⟩
  · rintro ⟨whole, known, room⟩
    have there := (counts _).mpr ⟨whole, known, rfl⟩
    exact ⟨⟨_, (come _).mpr there⟩, (kept _ there).symm ▸ room⟩

/-- **A success has passed all vectors to the file**, and tells the remainder of their total. -/
theorem told_of_success {d table count result : UInt32} :
    let done := (answered write).run (site.passing [.i32 d, .i32 table, .i32 count, .i32 result])
    let vectors := gathered site.memory table.toNat count.toNat 0
    done.1 = .ok Errno.success.code →
      (∀ file, site.process.file? d.toNat = some file →
        done.2.world = vectors.foldl (handed site.invocation d.toNat file) site.world) ∧
      done.2.memory.readWord 4 result.toNat = .ok (vectors.flatten.length % (maxWord + 1)) := by
  intro done vectors success
  let passing := site.passing [.i32 d, .i32 table, .i32 count, .i32 result]
  obtain ⟨whole, known, room⟩ := success_iff.mp success
  have there : counted passing d.toNat table.toNat count.toNat = some vectors.flatten.length :=
    counted_all_iff.mpr ⟨whole, known, rfl⟩
  obtain ⟨world, run, passed⟩ := run_writeVectors_of_counted there
  have rest : done.2 = (write.run passing).2 := site_answered write passing
  rw [run_write rfl, run] at rest
  dsimp only at rest
  rw [run_store_return, if_pos (show passing.memory.Holds result.toNat 4 from room)] at rest
  rw [rest]
  exact ⟨passed, Memory.readWord_overwrite_mod room _⟩

/-- **Whether the count of written bytes wraps around.** A guest has vectors written to a
descriptor, of which those in front of the first that is not in memory can be; they have a total of
bytes.
- The count behind some vectors is what the writing goes on with. It passes the greatest word on the
  way exactly if the file takes what is written to it, and the total is greater than that.
- Writing succeeds exactly if all vectors are in memory, the file takes them if there are any, and
  there is room for the count.
- Then all of them have been passed to the file, in order, and the guest finds the remainder of the
  total by 2^32.
- So the guest is told of a success with a wrong count exactly if writing succeeds with more bytes
  than the greatest word. -/
theorem count_wraps_iff (site : Site) (d table count result : UInt32) :
    let passing := site.passing [.i32 d, .i32 table, .i32 count, .i32 result]
    let done := (answered write).run passing
    let vectors := gathered site.memory table.toNat count.toNat 0
    let total := vectors.flatten.length
    ((∀ k ≤ count.toNat, ∀ n, counted passing d.toNat table.toNat k = some n →
        ∃ mid, (writeVectors d.toNat table.toNat count.toNat 0 0).run passing =
          (writeVectors d.toNat table.toNat (count.toNat - k) k n).run mid) ∧
      ((∃ k ≤ count.toNat, ∃ n, counted passing d.toNat table.toNat k = some n ∧ maxWord < n) ↔
        Takes site d.toNat ∧ maxWord < total)) ∧
    (done.1 = .ok Errno.success.code ↔
      vectors.length = count.toNat ∧ (count.toNat = 0 ∨ Takes site d.toNat) ∧
        site.memory.Holds result.toNat 4) ∧
    (done.1 = .ok Errno.success.code →
      (∀ file, site.process.file? d.toNat = some file →
        done.2.world = vectors.foldl (handed site.invocation d.toNat file) site.world) ∧
      done.2.memory.readWord 4 result.toNat = .ok (total % (maxWord + 1))) ∧
    (done.1 = .ok Errno.success.code ∧ done.2.memory.readWord 4 result.toNat ≠ .ok total ↔
      vectors.length = count.toNat ∧ Takes site d.toNat ∧ site.memory.Holds result.toNat 4 ∧
        maxWord < total) := by
  intro passing done vectors total
  have told (success : done.1 = .ok Errno.success.code) := told_of_success success
  have wraps (success : done.1 = .ok Errno.success.code) :
      done.2.memory.readWord 4 result.toNat ≠ .ok total ↔ maxWord < total := by
    rw [(told success).2, Ne, Except.ok.injEq, Nat.mod_eq_iff_lt (Nat.succ_ne_zero maxWord)]
    exact Nat.not_lt
  refine ⟨⟨fun k le n => counted_goes_on le, counted_gt_iff⟩, success_iff, told, ?_⟩
  rw [and_congr_right wraps, success_iff]
  constructor
  · rintro ⟨⟨whole, known, room⟩, greater⟩
    refine ⟨whole, known.resolve_left fun none => ?_, room, greater⟩
    have nothing : vectors = [] := List.eq_nil_of_length_eq_zero (whole.trans none)
    simp [total, nothing] at greater
  · rintro ⟨whole, taken, room, greater⟩
    exact ⟨⟨whole, .inr taken, room⟩, greater⟩

/-- Memory with a vector written at the address of its entry. -/
def withVector (m : Memory) (entry : Nat) (vector : Nat × Nat) : Memory :=
  (m.overwrite entry (Bytes.ofWord 4 vector.1)).overwrite (entry + 4) (Bytes.ofWord 4 vector.2)

/-- A vector that has been written is read back, and words in front of it as before. -/
theorem readWord_withVector {m : Memory} {entry address length : Nat} (inside : m.Holds entry 8)
    (word : address ≤ maxWord) (word' : length ≤ maxWord) :
    (withVector m entry (address, length)).readWord 4 entry = .ok address ∧
      (withVector m entry (address, length)).readWord 4 (entry + 4) = .ok length ∧
      ∀ other, other + 4 ≤ entry →
        (withVector m entry (address, length)).readWord 4 other = m.readWord 4 other := by
  have low : m.Holds entry 4 := by simp only [Memory.Holds] at inside ⊢; omega
  have high : m.Holds (entry + 4) 4 := by simp only [Memory.Holds] at inside ⊢; omega
  have put (value : Nat) : m.Holds entry (Bytes.ofWord 4 value).length := by
    rwa [Bytes.length_ofWord]
  have high' (value : Nat) : (m.overwrite entry (Bytes.ofWord 4 value)).Holds (entry + 4) 4 := by
    rwa [Memory.Holds, Memory.size_overwrite]
  have put' (value value' : Nat) : (m.overwrite entry (Bytes.ofWord 4 value)).Holds (entry + 4)
      (Bytes.ofWord 4 value').length := by
    rw [Bytes.length_ofWord]
    exact high' value
  refine ⟨?_, Memory.readWord_overwrite (high' address) word', fun other before => ?_⟩
  · rw [withVector, Memory.readWord_overwrite_of_apart (put' _ _) (.inl (Nat.le_refl _)),
      Memory.readWord_overwrite low word]
  · rw [withVector, Memory.readWord_overwrite_of_apart (put' _ _) (.inl (by omega)),
      Memory.readWord_overwrite_of_apart (put _) (.inl before)]

/-- A table whose two entries have one vector has its bytes twice. -/
theorem gathered_twice {m : Memory} {address length : Nat} (first : m.readWord 4 0 = .ok address)
    (first' : m.readWord 4 4 = .ok length) (second : m.readWord 4 8 = .ok address)
    (second' : m.readWord 4 12 = .ok length) (inside : m.Holds address length) :
    gathered m 0 2 0 = [m.bytesAt address length, m.bytesAt address length] := by
  have entries : satAdd 0 (satMul 0 8) = 0 ∧ satAdd 0 (satMul 1 8) = 8 := ⟨rfl, rfl⟩
  have behind : satAdd 0 4 = 4 ∧ satAdd 8 4 = 12 := ⟨rfl, rfl⟩
  have one : vectorBytes m 0 0 = some (m.bytesAt address length) := by
    simp only [vectorBytes, entries.1, behind.1, first, first', if_pos inside]
  have other : vectorBytes m 0 1 = some (m.bytesAt address length) := by
    simp only [vectorBytes, entries.2, behind.2, second, second', if_pos inside]
  simp only [gathered, one, other]

/-- A guest with the largest memory there is, and a table of two vectors in it, each of which is the
first half. -/
def doubling : Site where
  arguments := []
  memory := withVector (withVector (.zeros (maxWord + 1)) 0 (0, 0x80000000)) 8 (0, 0x80000000)
  invocation := (Context.top "writer" "run").toInvocation
  process := Process.unbound.withFile 2 .standardError
  world := .fresh .offline 0

theorem size_doubling : doubling.memory.size = maxWord + 1 := by
  rw [doubling, withVector, withVector]
  simp only [Memory.size_overwrite]
  rfl

/-- Both vectors of the guest are half of its memory. -/
theorem gathered_doubling :
    ∃ half : Bytes, half.length = 0x80000000 ∧ gathered doubling.memory 0 2 0 = [half, half] := by
  obtain ⟨address, length, -⟩ := @readWord_withVector (.zeros (maxWord + 1)) 0 0 0x80000000
    (by decide) (by decide) (by decide)
  obtain ⟨address', length', before⟩ := @readWord_withVector
    (withVector (.zeros (maxWord + 1)) 0 (0, 0x80000000)) 8 0 0x80000000
    (by rw [Memory.Holds, withVector, Memory.size_overwrite, Memory.size_overwrite]; decide)
    (by decide) (by decide)
  have inside : doubling.memory.Holds 0 0x80000000 := by
    rw [Memory.Holds, size_doubling]
    decide
  exact ⟨_, Memory.length_bytesAt _ _ _, gathered_twice ((before 0 (by decide)).trans address)
    ((before 4 (by decide)).trans length) address' length' inside⟩

/-- Standard error is given 2^32 bytes, and the guest is told of a success with none. -/
theorem count_wraps_iff_doubling :
    (gathered doubling.memory 0 2 0).flatten.length = maxWord + 1 ∧
      ((answered write).run (doubling.passing [.i32 2, .i32 0, .i32 2, .i32 16])).1 =
        .ok Errno.success.code ∧
      ((answered write).run (doubling.passing [.i32 2, .i32 0, .i32 2, .i32 16])).2.memory.readWord
        4 16 = .ok 0 := by
  obtain ⟨half, long, vectors⟩ := gathered_doubling
  have total : (gathered doubling.memory 0 2 0).flatten.length = maxWord + 1 := by
    rw [vectors]
    simp only [List.flatten_cons, List.flatten_nil, List.length_append, long]
    rfl
  have room : doubling.memory.Holds 16 4 := by
    rw [Memory.Holds, size_doubling]
    decide
  have taken : Takes doubling 2 := ⟨.standardError, rfl, rfl⟩
  obtain ⟨-, succeeds, told, -⟩ := count_wraps_iff doubling 2 0 2 16
  have words : (0 : UInt32).toNat = 0 ∧ (2 : UInt32).toNat = 2 ∧ (16 : UInt32).toNat = 16 :=
    ⟨rfl, rfl, rfl⟩
  simp only [words] at succeeds told
  have success := succeeds.mpr ⟨congrArg List.length vectors, .inr taken, room⟩
  have word := (told success).2
  rw [total, Nat.mod_self] at word
  exact ⟨total, success, word⟩

end Syscall

end Posix

end GuestHost
