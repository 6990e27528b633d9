import GuestHost.Proofs.Posix.Addresses
/-!
# Writing vectors gathers them

A guest writes several ranges of its memory with one system call, which appends them to a buffer one
by one and looks its table and its descriptor up again for each. Neither changes on the way, and
appending twice is appending once, `Buffer.write_write`; so the loop comes to one write of all the
ranges in order, `run_writeVectors_gathered`, and the system call to that write and to the word that
tells the guest how many bytes there were: `write_gathers`.
-/

namespace GuestHost

open Stateful Exchange

namespace Exchange

/-! ## Buffers that collect -/

namespace Buffer

variable {b : Buffer} {content : Bytes}

/-- What has been written to a buffer that keeps it in one piece. -/
def collected? : Buffer → Option Bytes
  | memory b => some b.content
  | response b => some b.content
  | _ => none

/-- **A buffer that collects takes what is written to it**, behind what it has. -/
theorem write_collected (collects : b.collected? = some content) (bytes : Bytes) :
    (b.write bytes).1 = .ok bytes.length ∧
      (b.write bytes).2.collected? = some (content ++ bytes) := by
  cases b with
  | memory b => exact ⟨rfl, congrArg (fun c => some (c ++ bytes)) (Option.some.inj collects)⟩
  | response b => exact ⟨rfl, congrArg (fun c => some (c ++ bytes)) (Option.some.inj collects)⟩
  | _ => cases collects

theorem write_nil (collects : b.collected? = some content) : (b.write []).2 = b := by
  cases b with
  | memory b => simp [write]
  | response b => simp [write]
  | _ => cases collects

/-- **Writing twice is writing once.** -/
theorem write_write (collects : b.collected? = some content) (bytes more : Bytes) :
    ((b.write bytes).2.write more).2 = (b.write (bytes ++ more)).2 := by
  cases b with
  | memory b => simp [write]
  | response b => simp [write]
  | _ => cases collects

end Buffer

end Exchange

/-- **What is written to an output whose buffer collects changes that buffer** and nothing else. -/
theorem Posix.File.write_collecting {w : World} {place : Place} {b : Buffer} {content : Bytes}
    (held : w.registry.at? place = some b) (collects : b.collected? = some content)
    (bytes : Bytes) : File.write bytes w (.output place) =
      (.ok bytes.length, { w with registry := w.registry.put place (b.write bytes).2 }) := by
  rw [File.write_output, World.useAt, Registry.useAt_of_at? held,
    (Buffer.write_collected collects bytes).1]
  rfl

namespace Posix

namespace Syscall

variable {site : Site} {place : Place} {b : Buffer} {content : Bytes}

/-! ## Vectors in memory -/

/-- The vectors that a table has from an index on. -/
def vectorsAt (m : Memory) (table index count : Nat) : List (Nat × Nat) :=
  (List.range' index count).map (vectorAt m table)

/-- The bytes of vectors one after the other. -/
def gather (m : Memory) (vectors : List (Nat × Nat)) : Bytes :=
  vectors.flatMap fun v => m.bytesAt v.1 v.2

theorem length_gather (m : Memory) (vectors : List (Nat × Nat)) :
    (gather m vectors).length = (vectors.map Prod.snd).sum := by
  simp [gather, List.length_flatMap]

/-- A vector that is in memory with its entry has the bytes that are there. -/
theorem vectorBytes_of_holds {table index : Nat} (most : site.memory.size ≤ maxWord + 1)
    (entry : site.memory.Holds (table + 8 * index) 8)
    (inside : site.memory.Holds (vectorAt site.memory table index).1
      (vectorAt site.memory table index).2) :
    vectorBytes site.memory table index = some (site.memory.bytesAt
      (vectorAt site.memory table index).1 (vectorAt site.memory table index).2) := by
  obtain ⟨e, fetched⟩ := run_vectorBytes table index site
  rw [run_bind, run_vector most entry] at fetched
  dsimp only at fetched
  rw [Call.run_slice, if_pos inside] at fetched
  cases found : vectorBytes site.memory table index with
  | none =>
    rw [found] at fetched
    cases fetched
  | some bytes =>
    rw [found] at fetched
    exact congrArg some (Except.ok.inj (Prod.mk.inj fetched).1).symm

/-! ## The loop -/

/-- **Writing vectors one after the other is one write of what they gather.** -/
theorem run_writeVectors_gathered {d table index left written : Nat}
    (most : site.memory.size ≤ maxWord + 1)
    (entries : ∀ i, index ≤ i → i < index + left → site.memory.Holds (table + 8 * i) 8)
    (inside : ∀ v ∈ vectorsAt site.memory table index left, site.memory.Holds v.1 v.2)
    (opened : site.process.file? d = some (.output place))
    (held : site.world.registry.at? place = some b) (collects : b.collected? = some content) :
    let bytes := gather site.memory (vectorsAt site.memory table index left)
    ∃ log, (writeVectors d table left index written).run site =
      (.ok (.ok (written + bytes.length)), { site with world := { site.world with
        registry := site.world.registry.put place (b.write bytes).2, log := log } }) := by
  induction left generalizing site index written b content with
  | zero =>
    refine ⟨site.world.log, ?_⟩
    have nothing : gather site.memory (vectorsAt site.memory table index 0) = [] := rfl
    rw [nothing, Buffer.write_nil collects, Registry.put_self held]
    rfl
  | succ left ih =>
    let v := vectorAt site.memory table index
    have row : vectorsAt site.memory table index (left + 1) =
      v :: vectorsAt site.memory table (index + 1) left := rfl
    rw [row] at inside
    obtain ⟨here, later⟩ := List.forall_mem_cons.mp inside
    have fetched := vectorBytes_of_holds most (entries index (Nat.le_refl _) (by omega)) here
    obtain ⟨e, heard, noted, run⟩ := run_writeVectors_succ d table left index written site
    obtain ⟨log, rfl⟩ : ∃ log, heard = { site.world with log := log } := by
      rcases noted with rfl | ⟨event, rfl⟩
      · exact ⟨_, rfl⟩
      · exact ⟨_, rfl⟩
    -- the vector is written to the buffer, and the rest behind it
    let wrote : Site := { site with world := { site.world with
      registry := site.world.registry.put place (b.write (site.memory.bytesAt v.1 v.2)).2
      log := log } }
    have step : (writeVectors d table (left + 1) index written).run site =
        (writeVectors d table left (index + 1) (written + v.2)).run wrote := by
      have held' : ({ site.world with log := log } : World).registry.at? place = some b := held
      rw [run, fetched, opened]
      dsimp only
      rw [File.write_collecting held' collects, Memory.length_bytesAt]
    have entries' : ∀ i, index + 1 ≤ i → i < index + 1 + left →
        wrote.memory.Holds (table + 8 * i) 8 :=
      fun i le lt => entries i (by omega) (by omega)
    obtain ⟨log', rest⟩ := @ih wrote _ _ (index + 1) (written + v.2) most entries' later opened
      (Registry.at?_put_self held _) (Buffer.write_collected collects _).2
    refine ⟨log', ?_⟩
    have bytes : gather site.memory (vectorsAt site.memory table index (left + 1)) =
        site.memory.bytesAt v.1 v.2 ++
          gather site.memory (vectorsAt site.memory table (index + 1) left) := rfl
    rw [step, rest, bytes, List.length_append, Memory.length_bytesAt, ← Nat.add_assoc,
      ← Buffer.write_write collects, ← Registry.put_put site.world.registry place]

/-! ## The system call -/

/-- **Writing vectors gathers exactly.** A guest hands over a table of vectors that are in memory
with their entries, and whose lengths add up to a word, the address of a word in memory, and a
descriptor that stands for an output whose buffer collects what it is given. Then the system call
succeeds. The buffer has what it had and behind that the bytes that the vectors had at the call, in
the order of the table, whether they overlap or not; the word is the sum of their lengths; and
nothing else has changed but the log, which may note down what was written. -/
theorem write_gathers {d table count result : UInt32} (most : site.memory.size ≤ maxWord + 1)
    (entries : ∀ i < count.toNat, site.memory.Holds (table.toNat + 8 * i) 8)
    (inside : ∀ v ∈ vectorsAt site.memory table.toNat 0 count.toNat, site.memory.Holds v.1 v.2)
    (few : ((vectorsAt site.memory table.toNat 0 count.toNat).map Prod.snd).sum ≤ maxWord)
    (room : site.memory.Holds result.toNat 4)
    (opened : site.process.file? d.toNat = some (.output place))
    (held : site.world.registry.at? place = some b) (collects : b.collected? = some content) :
    let passing := site.passing [.i32 d, .i32 table, .i32 count, .i32 result]
    let vectors := vectorsAt site.memory table.toNat 0 count.toNat
    let written := (b.write (gather site.memory vectors)).2
    ∃ memory log, (answered write).run passing = (.ok Errno.success.code, { passing with
        memory := memory
        world := { site.world with
          registry := site.world.registry.put place written, log := log } }) ∧
      written.collected? = some (content ++ gather site.memory vectors) ∧
      (site.world.registry.put place written).at? place = some written ∧
      (∀ other, other ≠ place → (site.world.registry.put place written).at? other =
        site.world.registry.at? other) ∧
      memory.size = site.memory.size ∧
      memory.readWord 4 result.toNat = .ok (vectors.map Prod.snd).sum ∧
      ∀ j, (j < result.toNat ∨ result.toNat + 4 ≤ j) →
        memory.byteAt j = site.memory.byteAt j := by
  intro passing vectors written
  have entries' : ∀ i, 0 ≤ i → i < 0 + count.toNat →
      site.memory.Holds (table.toNat + 8 * i) 8 := fun i _ lt => entries i (by omega)
  obtain ⟨log, gathered⟩ := @run_writeVectors_gathered passing place b content d.toNat table.toNat 0
    count.toNat 0 most entries' inside opened held collects
  rw [length_gather, Nat.zero_add] at gathered
  have word : (vectors.map Prod.snd).sum ≤ maxWord := few
  have put : site.memory.Holds result.toNat
      (Bytes.ofWord 4 (vectors.map Prod.snd).sum).length := by
    rwa [Bytes.length_ofWord]
  have run : write.run passing = (.ok .success, { passing with
      memory := site.memory.overwrite result.toNat (Bytes.ofWord 4 (vectors.map Prod.snd).sum)
      world := { site.world with
        registry := site.world.registry.put place written, log := log } }) := by
    rw [write_eq, Call.run_word_bind rfl, Call.run_word_bind rfl, Call.run_word_bind rfl,
      Call.run_word_bind rfl, run_bind, gathered]
    dsimp only
    rw [run_bind, Call.run_store, if_pos (show passing.memory.Holds result.toNat 4 from room)]
    rfl
  refine ⟨_, log, run_answered_of_ok run, (Buffer.write_collected collects _).2,
    Registry.at?_put_self held _, fun other apart => Registry.at?_put_of_ne apart _,
    Memory.size_overwrite _ _ _, Memory.readWord_overwrite room word,
    fun j outside => Memory.byteAt_overwrite put ?_⟩
  rwa [Bytes.length_ofWord]

/-- A process whose standard output is a response with one byte, and a table of three vectors: one
of three bytes, an empty one, and one that overlaps the first. -/
def scattered : Site where
  arguments := []
  memory := .ofBytes ([24, 0, 0, 0, 3, 0, 0, 0, 0, 0, 0, 0, 0, 0, 0, 0, 25, 0, 0, 0, 3, 0, 0, 0] ++
    [0x61, 0x62, 0x63, 0x64])
  invocation := (Context.top "writer" "run").toInvocation
  process := Process.unbound.withFile 1 (.output 0)
  world := ((World.fresh .offline 0).register (.response ⟨.empty, 200, [0x3e]⟩)).2

/-- The bytes that are in two vectors are written twice. -/
theorem write_gathers_scattered : ∃ memory world,
    (answered write).run (scattered.passing [.i32 1, .i32 0, .i32 3, .i32 8]) =
      (.ok Errno.success.code,
        { scattered.passing [.i32 1, .i32 0, .i32 3, .i32 8] with
          memory := memory, world := world }) ∧
      world.registry.at? 0 =
        some (.response ⟨.empty, 200, [0x3e, 0x61, 0x62, 0x63, 0x62, 0x63, 0x64]⟩) ∧
      memory.readWord 4 8 = .ok 6 := by
  have vectors : vectorsAt scattered.memory (0 : UInt32).toNat 0 (3 : UInt32).toNat =
      [(24, 3), (0, 0), (25, 3)] := by decide +kernel
  have bytes : gather scattered.memory [(24, 3), (0, 0), (25, 3)] =
      [0x61, 0x62, 0x63, 0x62, 0x63, 0x64] := by decide +kernel
  obtain ⟨memory, log, run, -, there, -, -, total, -⟩ := @write_gathers scattered 0
    (.response ⟨.empty, 200, [0x3e]⟩) [0x3e] 1 0 3 8 (by decide) (by decide)
    (by rw [vectors]; decide) (by rw [vectors]; decide) (by decide) rfl rfl rfl
  rw [vectors] at total
  rw [vectors, bytes] at run there
  exact ⟨memory, _, run, there, total⟩

end Syscall

end Posix

end GuestHost
