import GuestHost.Posix.Syscall
import GuestHost.Proofs.HostCalls.Sizes
import GuestHost.Proofs.Memory
import Mathlib.Algebra.Group.Nat.Defs
/-!
# The command line in a guest's memory

A guest learns its command line in two system calls. The first tells how many arguments there are
and how many bytes they take; then the guest makes room for a table of so many addresses and for so
many bytes, and the second fills both. What the second writes is `Laid`: the arguments one after the
other with a NUL behind each, their addresses in the table, and nothing else, `run_storeArguments`.
So a guest that made the room it was told to make reads back its command line,
`arguments_round_trip`.
-/

namespace GuestHost

open Stateful

theorem Utf8.length_encode (text : String) : (Utf8.encode text).length = text.utf8ByteSize := by
  simp [Utf8.encode]

/-- Addresses add up as numbers do below the greatest word. -/
theorem satAdd_eq {a b : Nat} (h : a + b ≤ maxWord) : satAdd a b = a + b := Nat.min_eq_left h

namespace Posix

namespace Syscall

variable {site : Site} {argv : List String} {m m' : Memory} {slot table index offset : Nat}

/-- A system call that returns an error number answers with it. -/
theorem run_answered_of_ok {call : Call Errno} {errno : Errno} {after : Site}
    (run : call.run site = (.ok errno, after)) :
    (answered call).run site = (.ok errno.code, after) := by
  simp only [answered, run_tryCatch, run_bind, run]
  rfl

/-! ## The layout -/

/-- Arguments one after the other with a NUL behind each. -/
def terminated (argv : List String) : Bytes := argv.flatMap fun text => Utf8.encode text ++ [0]

/-- The addresses of arguments that stand one after the other. -/
def addresses (offset : Nat) : List String → List Nat
  | [] => []
  | text :: rest => offset :: addresses (offset + (text.utf8ByteSize + 1)) rest

theorem length_le_argumentsSize (argv : List String) : argv.length ≤ argumentsSize argv := by
  induction argv with
  | nil => exact Nat.le_refl 0
  | cons text rest ih =>
    rw [List.length_cons, argumentsSize]
    omega

theorem argumentsSize_append (argv more : List String) :
    argumentsSize (argv ++ more) = argumentsSize argv + argumentsSize more := by
  induction argv with
  | nil => exact (Nat.zero_add _).symm
  | cons text rest ih =>
    rw [List.cons_append, argumentsSize, argumentsSize, ih]
    omega

/-- Memory `m'` is `m` with arguments laid out in it: their addresses from `slot` on, and the
arguments from `offset` on. -/
structure Laid (argv : List String) (slot offset : Nat) (m m' : Memory) : Prop where
  size_eq : m'.size = m.size
  strings : m'.bytesAt offset (argumentsSize argv) = terminated argv
  pointers : m'.words slot argv.length = addresses offset argv
  frame : ∀ j, (j < slot ∨ slot + 4 * argv.length ≤ j) →
    (j < offset ∨ offset + argumentsSize argv ≤ j) → m'.byteAt j = m.byteAt j

theorem laid_nil (slot offset : Nat) (m : Memory) : Laid [] slot offset m m :=
  ⟨rfl, rfl, rfl, fun _ _ _ => rfl⟩

/-- An argument that is put in front of those laid out behind it. -/
theorem Laid.cons {text : String} {rest : List String}
    (slots : m.Holds slot (4 * (rest.length + 1)))
    (room : m.Holds offset (argumentsSize (text :: rest)))
    (apart : slot + 4 * (rest.length + 1) ≤ offset ∨
      offset + argumentsSize (text :: rest) ≤ slot)
    (words : m.size ≤ maxWord + 1)
    (laid : Laid rest (slot + 4) (offset + (text.utf8ByteSize + 1))
      ((m.overwrite slot (Bytes.ofWord 4 offset)).overwrite offset (Utf8.encode text ++ [0])) m') :
    Laid (text :: rest) slot offset m m' := by
  have length : (Utf8.encode text ++ [0]).length = text.utf8ByteSize + 1 := by
    rw [List.length_append, Utf8.length_encode]
    rfl
  simp only [argumentsSize, Memory.Holds, maxWord] at slots room apart words
  have inside : m.Holds slot (Bytes.ofWord 4 offset).length := by
    simp only [Bytes.length_ofWord, Memory.Holds]
    omega
  have inside' : (m.overwrite slot (Bytes.ofWord 4 offset)).Holds offset
      (Utf8.encode text ++ [0]).length := by
    simp only [length, Memory.Holds, Memory.size_overwrite]
    omega
  -- the address, and the argument with its NUL, stay as they were put
  have pointer : m'.bytesAt slot 4 = Bytes.ofWord 4 offset := by
    calc m'.bytesAt slot 4
        = ((m.overwrite slot (Bytes.ofWord 4 offset)).overwrite offset
            (Utf8.encode text ++ [0])).bytesAt slot 4 :=
          Memory.bytesAt_congr fun j low high => laid.frame j (by omega) (by omega)
      _ = (m.overwrite slot (Bytes.ofWord 4 offset)).bytesAt slot 4 :=
          Memory.bytesAt_overwrite_of_apart inside' (by rw [length]; omega)
      _ = Bytes.ofWord 4 offset := Memory.bytesAt_overwrite inside
  have string : m'.bytesAt offset (text.utf8ByteSize + 1) = Utf8.encode text ++ [0] := by
    calc m'.bytesAt offset (text.utf8ByteSize + 1)
        = ((m.overwrite slot (Bytes.ofWord 4 offset)).overwrite offset
            (Utf8.encode text ++ [0])).bytesAt offset (text.utf8ByteSize + 1) :=
          Memory.bytesAt_congr fun j low high => laid.frame j (by omega) (by omega)
      _ = Utf8.encode text ++ [0] := by
          rw [← length]
          exact Memory.bytesAt_overwrite inside'
  constructor
  case size_eq => rw [laid.size_eq, Memory.size_overwrite, Memory.size_overwrite]
  case strings =>
    rw [argumentsSize, Memory.bytesAt_add, string, laid.strings]
    rfl
  case pointers =>
    have word : Bytes.toWord (Bytes.ofWord 4 offset) = offset :=
      Bytes.toWord_ofWord_four (by simp only [maxWord]; omega)
    rw [List.length_cons, Memory.words, pointer, word, laid.pointers, addresses]
  case frame =>
    intro j slots' room'
    rw [argumentsSize] at room'
    rw [List.length_cons] at slots'
    rw [laid.frame j (by omega) (by omega), Memory.byteAt_overwrite inside' (by rw [length]; omega),
      Memory.byteAt_overwrite inside (by rw [Bytes.length_ofWord]; omega)]

/-- **Arguments that are laid out are read back**, each from its address. -/
theorem Laid.read (laid : Laid argv slot offset m m')
    (room : m.Holds offset (argumentsSize argv)) (plain : ∀ text ∈ argv, 0 ∉ Utf8.encode text) :
    (m'.words slot argv.length).map m'.stringAt? =
      argv.map fun text => some (Utf8.encode text) := by
  have strings := laid.strings
  rw [laid.pointers]
  simp only [Memory.Holds, ← laid.size_eq] at room
  clear laid
  induction argv generalizing offset with
  | nil => rfl
  | cons text rest ih =>
    obtain ⟨first, plain⟩ := List.forall_mem_cons.mp plain
    rw [argumentsSize] at room
    rw [argumentsSize, Memory.bytesAt_add, terminated, List.flatMap_cons] at strings
    obtain ⟨string, strings⟩ := List.append_inj strings (by
      rw [Memory.length_bytesAt, List.length_append, Utf8.length_encode]
      rfl)
    have read : m'.stringAt? offset = some (Utf8.encode text) := by
      refine Memory.stringAt?_of_bytesAt ?_ first ?_
      · simp only [Memory.Holds, Utf8.length_encode]
        omega
      · rwa [Utf8.length_encode]
    have later : offset + (text.utf8ByteSize + 1) + argumentsSize rest ≤ m'.size := by omega
    rw [addresses, List.map_cons, List.map_cons, read, ih plain strings later]

/-! ## The system calls -/

theorem slot_wraps (table index : Nat) :
    Syscall.slot table index = satAdd table (4 * index % 2 ^ 32) := rfl

/-- The addresses of a table follow one another as long as their places are words. -/
theorem slot_eq (h : table + 4 * index ≤ maxWord) :
    Syscall.slot table index = table + 4 * index := by
  have word : 4 * index < 2 ^ 32 := by
    simp only [maxWord] at h
    omega
  rw [slot_wraps, Nat.mod_eq_of_lt word, satAdd_eq h]

/-- **What writing the arguments does to memory.** -/
theorem run_storeArguments (slots : site.memory.Holds (table + 4 * index) (4 * argv.length))
    (room : site.memory.Holds offset (argumentsSize argv))
    (apart : table + 4 * index + 4 * argv.length ≤ offset ∨
      offset + argumentsSize argv ≤ table + 4 * index)
    (words : site.memory.size ≤ maxWord + 1) :
    ∃ m, (storeArguments table argv index offset).run site =
        (.ok ⟨⟩, { site with memory := m }) ∧
      Laid argv (table + 4 * index) offset site.memory m := by
  induction argv generalizing site index offset with
  | nil => exact ⟨site.memory, rfl, laid_nil _ offset site.memory⟩
  | cons text rest ih =>
    set slot := table + 4 * index with slot_def
    have slots' := slots
    have room' := room
    have apart' := apart
    simp only [List.length_cons, argumentsSize, Memory.Holds] at slots' room' apart'
    let pointed := site.memory.overwrite slot (Bytes.ofWord 4 offset)
    let written := pointed.overwrite offset (Utf8.encode text ++ [0])
    have size : written.size = site.memory.size := by
      rw [Memory.size_overwrite, Memory.size_overwrite]
    have stop : satAdd offset (Utf8.encode text).length = offset + text.utf8ByteSize := by
      rw [Utf8.length_encode, satAdd_eq (by omega)]
    have nul : (pointed.overwrite offset (Utf8.encode text)).overwrite
        (offset + text.utf8ByteSize) (Bytes.ofWord 1 0) = written := by
      rw [← Utf8.length_encode]
      exact (Memory.overwrite_append pointed offset (Utf8.encode text) [0]).symm
    have here : Syscall.slot table index = slot := slot_eq (by omega)
    have behind : table + 4 * (index + 1) = slot + 4 := by omega
    -- where there is another argument, its address is a word
    have next : storeArguments table rest (index + 1) (satAdd (offset + text.utf8ByteSize) 1) =
        storeArguments table rest (index + 1) (offset + (text.utf8ByteSize + 1)) := by
      cases rest with
      | nil => rfl
      | cons another rest =>
        simp only [List.length_cons, argumentsSize] at slots' room' apart'
        rw [satAdd_eq (by omega), Nat.add_assoc]
    obtain ⟨m, run, laid⟩ := @ih { site with memory := written } (index + 1)
      (offset + (text.utf8ByteSize + 1)) (by simp only [Memory.Holds, size]; omega)
      (by simp only [Memory.Holds, size]; omega) (by omega) (by simpa only [size] using words)
    rw [behind] at laid
    refine ⟨m, ?_, laid.cons slots room apart words⟩
    have holds₁ : site.memory.Holds slot 4 := by
      simp only [Memory.Holds]
      omega
    have holds₂ : pointed.Holds offset (Utf8.encode text).length := by
      simp only [Memory.Holds, pointed, Memory.size_overwrite, Utf8.length_encode]
      omega
    have holds₃ : (pointed.overwrite offset (Utf8.encode text)).Holds
        (offset + text.utf8ByteSize) 1 := by
      simp only [Memory.Holds, pointed, Memory.size_overwrite]
      omega
    rw [storeArguments, here, run_bind, Call.run_store, if_pos holds₁]
    dsimp only
    rw [run_bind, Call.run_write, if_pos holds₂]
    dsimp only
    rw [stop, run_bind, Call.run_store, if_pos holds₃]
    dsimp only
    rw [nul, next, run]

/-- The number of arguments and of their bytes are stored, the number of bytes last. -/
theorem run_argumentsSizes {count total : UInt32} (hcount : site.memory.Holds count.toNat 4)
    (htotal : site.memory.Holds total.toNat 4) :
    argumentsSizes.run (site.passing [.i32 count, .i32 total]) =
      (.ok .success, { site.passing [.i32 count, .i32 total] with
        memory := (site.memory.overwrite count.toNat
            (Bytes.ofWord 4 site.process.arguments.length)).overwrite total.toNat
          (Bytes.ofWord 4 (argumentsSize site.process.arguments)) }) := by
  have word₀ : (Call.word 0).run (site.passing [.i32 count, .i32 total]) = (.ok count.toNat, _) :=
    Call.run_word rfl
  have word₁ : (Call.word 1).run (site.passing [.i32 count, .i32 total]) = (.ok total.toNat, _) :=
    Call.run_word rfl
  have process : Call.process.run (site.passing [.i32 count, .i32 total]) =
    (.ok site.process, site.passing [.i32 count, .i32 total]) := rfl
  have memory : (site.passing [.i32 count, .i32 total]).memory = site.memory := rfl
  have htotal' : (site.memory.overwrite count.toNat
      (Bytes.ofWord 4 site.process.arguments.length)).Holds total.toNat 4 := by
    simpa only [Memory.Holds, Memory.size_overwrite] using htotal
  simp only [argumentsSizes, run_bind, word₀, word₁, process, Call.run_store, memory,
    if_pos hcount, if_pos htotal']
  rfl

theorem run_arguments (slots buffer : UInt32) :
    arguments.run (site.passing [.i32 slots, .i32 buffer]) =
      match (storeArguments slots.toNat site.process.arguments 0 buffer.toNat).run
        (site.passing [.i32 slots, .i32 buffer]) with
      | (.ok ⟨⟩, after) => (.ok .success, after)
      | (.error e, after) => (.error e, after) := by
  have word₀ : (Call.word 0).run (site.passing [.i32 slots, .i32 buffer]) = (.ok slots.toNat, _) :=
    Call.run_word rfl
  have word₁ : (Call.word 1).run (site.passing [.i32 slots, .i32 buffer]) = (.ok buffer.toNat, _) :=
    Call.run_word rfl
  have process : Call.process.run (site.passing [.i32 slots, .i32 buffer]) =
    (.ok site.process, site.passing [.i32 slots, .i32 buffer]) := rfl
  simp only [arguments, run_bind, word₀, word₁, process]
  rcases (storeArguments slots.toNat site.process.arguments 0 buffer.toNat).run
    (site.passing [.i32 slots, .i32 buffer]) with ⟨_ | _, _⟩ <;> rfl

/-- **The command line is read back.** Its arguments hold no NUL, they take less than 2^32 bytes
with a NUL behind each, and memory has no more than 2^32 bytes. Then, wherever a guest has room for
the two words, it is told the number of arguments and of their bytes; and wherever it has room for
that many addresses and, apart from them, for that many bytes, the system call for the arguments
succeeds: the texts at the addresses are the arguments in order, they fill the room for the bytes
exactly, and no other byte of memory changes, nor anything but memory. -/
theorem arguments_round_trip (plain : ∀ text ∈ site.process.arguments, 0 ∉ Utf8.encode text)
    (few : argumentsSize site.process.arguments ≤ maxWord)
    (most : site.memory.size ≤ maxWord + 1) :
    let argv := site.process.arguments
    (∀ count total : UInt32, site.memory.Holds count.toNat 4 → site.memory.Holds total.toNat 4 →
      let told := (answered argumentsSizes).run (site.passing [.i32 count, .i32 total])
      told.1 = .ok Errno.success.code ∧
        told.2.memory.readWord 4 total.toNat = .ok (argumentsSize argv) ∧
        (count.toNat + 4 ≤ total.toNat ∨ total.toNat + 4 ≤ count.toNat →
          told.2.memory.readWord 4 count.toNat = .ok argv.length)) ∧
    ∀ slots buffer : UInt32, site.memory.Holds slots.toNat (4 * argv.length) →
      site.memory.Holds buffer.toNat (argumentsSize argv) →
      slots.toNat + 4 * argv.length ≤ buffer.toNat ∨
        buffer.toNat + argumentsSize argv ≤ slots.toNat →
      ∃ m, (answered arguments).run (site.passing [.i32 slots, .i32 buffer]) =
          (.ok Errno.success.code,
            { site.passing [.i32 slots, .i32 buffer] with memory := m }) ∧
        (m.words slots.toNat argv.length).map m.stringAt? =
          argv.map (fun text => some (Utf8.encode text)) ∧
        m.bytesAt buffer.toNat (argumentsSize argv) = terminated argv ∧
        m.size = site.memory.size ∧
        ∀ j, (j < slots.toNat ∨ slots.toNat + 4 * argv.length ≤ j) →
          (j < buffer.toNat ∨ buffer.toNat + argumentsSize argv ≤ j) →
          m.byteAt j = site.memory.byteAt j := by
  intro argv
  refine ⟨fun count total hcount htotal => ?_, fun slots buffer hslots room apart => ?_⟩
  · rw [run_answered_of_ok (run_argumentsSizes hcount htotal)]
    let counted := site.memory.overwrite count.toNat (Bytes.ofWord 4 argv.length)
    have inside : counted.Holds total.toNat 4 := by
      simpa only [Memory.Holds, counted, Memory.size_overwrite] using htotal
    have counts : argv.length ≤ maxWord := Nat.le_trans (length_le_argumentsSize argv) few
    refine ⟨rfl, Memory.readWord_overwrite inside few, fun apart => ?_⟩
    -- the number of bytes is stored apart from the number of arguments
    have inside' : counted.Holds total.toNat (Bytes.ofWord 4 (argumentsSize argv)).length := by
      rwa [Bytes.length_ofWord]
    refine (Memory.readWord_overwrite_of_apart inside' ?_).trans
      (Memory.readWord_overwrite hcount counts)
    rwa [Bytes.length_ofWord]
  · obtain ⟨m, run, laid⟩ := @run_storeArguments (site.passing [.i32 slots, .i32 buffer]) argv
      slots.toNat 0 buffer.toNat hslots room apart most
    have returns : arguments.run (site.passing [.i32 slots, .i32 buffer]) =
        (.ok .success, { site.passing [.i32 slots, .i32 buffer] with memory := m }) := by
      rw [run_arguments, run]
    exact ⟨m, run_answered_of_ok returns, laid.read room plain, laid.strings, laid.size_eq, laid.frame⟩

/-- A process with two arguments, and 64 bytes of memory. -/
def listed : Site where
  arguments := []
  memory := .zeros 64
  invocation := (Context.top "lister" "run").toInvocation
  process := { Process.unbound with arguments := ["a.out", "-v"] }
  world := .fresh .offline 0

/-- The guest is told of two arguments and nine bytes, and reads them back from the end of its
memory. -/
theorem arguments_round_trip_listed :
    let told := (answered argumentsSizes).run (listed.passing [.i32 0, .i32 4])
    told.2.memory.readWord 4 0 = .ok 2 ∧ told.2.memory.readWord 4 4 = .ok 9 ∧
      ∃ m, ((answered arguments).run (listed.passing [.i32 47, .i32 55])).2.memory = m ∧
        (m.words 47 2).map m.stringAt? =
          [some [0x61, 0x2e, 0x6f, 0x75, 0x74], some [0x2d, 0x76]] := by
  obtain ⟨sizes, room⟩ := @arguments_round_trip listed (by decide) (by decide) (by decide)
  obtain ⟨-, total, count⟩ := sizes 0 4 (by decide) (by decide)
  obtain ⟨m, run, read, -⟩ := room 47 55 (by decide) (by decide) (by decide)
  exact ⟨count (by decide), total, m, congrArg (fun out => out.2.memory) run, read⟩

end Syscall

end Posix

end GuestHost
