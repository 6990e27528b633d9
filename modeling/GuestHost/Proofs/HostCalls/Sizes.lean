import GuestHost.Core
import GuestHost.Proofs.Exchange.Places
import GuestHost.Proofs.HostCalls.Accesses
/-!
# Asking a buffer for its size

A guest that wants what is in a buffer asks for the size of it, makes room, and reads. There are
two ways of asking, `Asks`: the query for the size, and a read without room for the content. Both
read the buffer to learn how much there is, so what a guest gets afterwards is what the buffer gives
to its second reader: `Core.size_keeps_data_iff`. A memory buffer gives the same again, a request
has nothing left, and a socket goes on to the next message of its peer.
-/

namespace GuestHost

open Stateful

namespace Exchange

variable {b : Buffer}

/-- What a buffer gives to its second reader. -/
def Buffer.readAgain (b : Buffer) : Except Error Bytes := b.read.2.read.1

/-- Reading takes nothing from a memory buffer. -/
theorem Buffer.readAgain_of_memory (memory : b.kind = .memory) : b.readAgain = b.read.1 := by
  cases b with
  | memory m => rfl
  | _ => cases memory

/-- The second reader of a request gets nothing. -/
theorem Buffer.readAgain_of_request (request : b.kind = .request) : b.readAgain = .ok [] := by
  cases b with
  | request r =>
    obtain ⟨headers, body⟩ := r
    cases body <;> rfl
  | _ => cases request

/-- The second reader of a socket gets the second message. -/
theorem Buffer.readAgain_of_socket (s : SocketBuffer) :
    (Buffer.socket s).readAgain =
      .ok (match s.inbound with
        | _ :: .data _ content :: _ => content
        | _ => []) := by
  obtain ⟨headers, inbound, outbound, peer, kind⟩ := s
  match inbound with
  | [] => rfl
  | [.close] => rfl
  | [.data kind content] => rfl
  | .close :: .close :: rest => rfl
  | .close :: .data kind content :: rest => rfl
  | .data kind content :: .close :: rest => rfl
  | .data kind content :: .data kind' content' :: rest => rfl

end Exchange

open Exchange (Buffer)

variable {site : Site} {h : UInt32} {b : Buffer} {content : Bytes} {α : Type}

/-! ## Reading a live buffer -/

/-- The site of a host call with other arguments. -/
def Site.passing (site : Site) (arguments : List Wasm.Value) : Site :=
  { site with arguments := arguments }

/-- A site after somebody has read the buffer of a handle. -/
def Site.reading (site : Site) (handle : Nat) : Site :=
  { site with world := (site.world.use handle Buffer.read).2 }

theorem Site.find?_reading {handle : Nat} (live : site.world.registry.find? handle = some b) :
    (site.reading handle).world.registry.find? handle = some b.read.2 := by
  rw [show (site.reading handle).world.registry = _ from World.registry_use _ _ _]
  exact (Exchange.Registry.use_of_find? live Buffer.read).2

theorem Call.run_word {index : Nat} {word : UInt32}
    (passed : site.arguments[index]? = some (.i32 word)) :
    (Call.word index).run site = (.ok word.toNat, site) := by
  simp only [Call.word, Call.argument, run_bind, run_get, passed]
  rfl

theorem Call.run_word_bind {β : Type} {f : Nat → Call β} {index : Nat} {word : UInt32}
    (passed : site.arguments[index]? = some (.i32 word)) :
    (Call.word index >>= f).run site = (f word.toNat).run site := by
  rw [run_bind, Call.run_word passed]

theorem Call.toNat_handle {n : Nat} (most : n ≤ maxWord) : (Call.handle n).toNat = n :=
  UInt32.toNat_ofNat_of_lt' (by simp only [maxWord] at most; simp only [UInt32.size]; omega)

theorem Call.run_world (site : Site) : Call.world.run site = (.ok site.world, site) := rfl

theorem Call.run_setWorld (w : World) (site : Site) :
    (Call.setWorld w).run site = (.ok ⟨⟩, { site with world := w }) := rfl

/-- Reading the buffer of a live handle. -/
theorem Call.run_read {handle : Nat} (live : site.world.registry.find? handle = some b) :
    (Call.use handle Buffer.read).run site =
      (b.read.1.mapError fun e => .recoverable (.exchange e), site.reading handle) := by
  have outcome : (site.world.use handle Buffer.read).1 = b.read.1 :=
    (Exchange.Registry.use_of_find? live Buffer.read).1
  unfold Call.use Call.attempt
  simp only [run_bind, run_world, run_setWorld, outcome]
  cases b.read.1 <;> rfl

/-! ## Asking for the size -/

namespace Core

/-- The host calls that ask a buffer for its size: the query for it, and a read without room for
the content. -/
inductive Asks (h : UInt32) (b : Buffer) : Call UInt32 → List Wasm.Value → Prop
  | size : Asks h b bufferSize [.i32 h]
  | short {address room : UInt32}
      (narrow : ∀ content, b.read.1 = .ok content → room.toNat < content.length) :
      Asks h b readBuffer [.i32 h, .i32 address, .i32 room]

/-- A read with room for so many bytes returns their number and leaves the content at the
address. -/
def Delivers (site : Site) (h address size : UInt32) (content : Bytes) : Prop :=
  let after := readBuffer.run (site.passing [.i32 h, .i32 address, .i32 size])
  after.1 = .ok size ∧ after.2.memory.bytesAt address.toNat size.toNat = content

variable {ask : Call UInt32} {arguments : List Wasm.Value} {n : UInt32}

theorem run_bufferSize (live : site.world.registry.find? h.toNat = some b) :
    bufferSize.run (site.passing [.i32 h]) =
      (match b.read.1 with
        | .ok content => .ok (Call.handle content.length)
        | .error e => .error (.recoverable (.exchange e)),
        (site.passing [.i32 h]).reading h.toNat) := by
  have word : (Call.word 0).run (site.passing [.i32 h]) = (.ok h.toNat, _) := Call.run_word rfl
  have read : (Call.use h.toNat Buffer.read).run (site.passing [.i32 h]) = _ := Call.run_read live
  simp only [bufferSize, run_bind, word, read]
  cases b.read.1 <;> rfl

theorem run_readBuffer {address room : UInt32}
    (live : site.world.registry.find? h.toNat = some b) :
    readBuffer.run (site.passing [.i32 h, .i32 address, .i32 room]) =
      let after := (site.passing [.i32 h, .i32 address, .i32 room]).reading h.toNat
      match b.read.1 with
        | .ok content =>
          if content.length ≤ room.toNat then
            if site.memory.Holds address.toNat content.length then
              (.ok (Call.handle content.length),
                { after with memory := site.memory.overwrite address.toNat content })
            else (.error (.outOfBounds ⟨address.toNat, content.length⟩), after)
          else (.ok (Call.handle content.length), after)
        | .error e => (.error (.recoverable (.exchange e)), after) := by
  have arguments (site : Site) (same : site.arguments = [.i32 h, .i32 address, .i32 room]) :
      (Call.word 0).run site = (.ok h.toNat, site) ∧
        (Call.word 1).run site = (.ok address.toNat, site) ∧
          (Call.word 2).run site = (.ok room.toNat, site) := by
    refine ⟨Call.run_word ?_, Call.run_word ?_, Call.run_word ?_⟩ <;> rw [same] <;> rfl
  obtain ⟨handle, pointer, length⟩ := arguments (site.passing _) rfl
  have read : (Call.use h.toNat Buffer.read).run
      (site.passing [.i32 h, .i32 address, .i32 room]) = _ := Call.run_read live
  simp only [readBuffer, run_bind, handle, pointer, length, read]
  cases b.read.1 with
  | error e => rfl
  | ok content =>
    dsimp only [Except.mapError]
    split
    · have memory : ((site.passing [.i32 h, .i32 address, .i32 room]).reading h.toNat).memory =
          site.memory := rfl
      rw [run_bind, Call.run_write, memory]
      by_cases inside : site.memory.Holds address.toNat content.length
      · rw [if_pos inside, if_pos inside]
        rfl
      · rw [if_neg inside, if_neg inside]
    · rfl

/-- **When a read delivers**: the buffer gives the content, and the size counts it. If the size is
that of more content than a word counts, nothing is copied, and the bytes can only have been in
memory before. -/
theorem delivers_iff {address size : UInt32}
    (live : site.world.registry.find? h.toNat = some b)
    (inside : site.memory.Holds address.toNat size.toNat) :
    Delivers site h address size content ↔ ∃ next, b.read.1 = .ok next ∧
      Call.handle next.length = size ∧
        (next = content ∧ content.length ≤ maxWord ∨
          maxWord < next.length ∧ site.memory.bytesAt address.toNat size.toNat = content) := by
  unfold Delivers
  rw [run_readBuffer live]
  cases come : b.read.1 with
  | error e =>
    refine iff_of_false (fun given => nomatch given.1) ?_
    rintro ⟨next, given, -⟩
    cases given
  | ok next =>
    simp only [Except.ok.injEq, exists_eq_left']
    have word := size.toNat_lt
    have counts (most : next.length ≤ maxWord) (same : Call.handle next.length = size) :
        size.toNat = next.length := by
      rw [← same, Call.toNat_handle most]
    by_cases fits : next.length ≤ size.toNat
    · have most : next.length ≤ maxWord := Nat.le_trans fits (Nat.le_of_lt_succ word)
      have inside' : site.memory.Holds address.toNat next.length := by
        simp only [Memory.Holds] at inside ⊢
        omega
      have written := Memory.bytesAt_overwrite inside'
      rw [if_pos fits, if_pos inside']
      constructor
      · rintro ⟨answer, left⟩
        have same := Except.ok.inj answer
        rw [counts most same, written] at left
        exact ⟨same, .inl ⟨left, left ▸ most⟩⟩
      · rintro ⟨same, ⟨rfl, -⟩ | ⟨large, -⟩⟩
        · rw [counts most same]
          exact ⟨congrArg Except.ok same, written⟩
        · omega
    · rw [if_neg fits]
      constructor
      · rintro ⟨answer, left⟩
        have same := Except.ok.inj answer
        have large : maxWord < next.length := Nat.lt_of_not_le fun most => by
          have := counts most same
          omega
        exact ⟨same, .inr ⟨large, left⟩⟩
      · rintro ⟨same, ⟨rfl, most⟩ | ⟨-, left⟩⟩
        · have := counts most same
          omega
        · exact ⟨congrArg Except.ok same, left⟩

/-- What asking for the size comes to. -/
theorem Asks.run (asks : Asks h b ask arguments)
    (live : site.world.registry.find? h.toNat = some b)
    (answered : (ask.run (site.passing arguments)).1 = .ok n) :
    ∃ content, b.read.1 = .ok content ∧ n = Call.handle content.length ∧
      (ask.run (site.passing arguments)).2 = (site.passing arguments).reading h.toNat := by
  cases asks with
  | size =>
    rw [run_bufferSize live] at answered ⊢
    cases come : b.read.1 with
    | error e =>
      rw [come] at answered
      cases answered
    | ok content =>
      rw [come] at answered
      exact ⟨content, rfl, (Except.ok.inj answered).symm, rfl⟩
  | short narrow =>
    rw [run_readBuffer live] at answered ⊢
    cases come : b.read.1 with
    | error e =>
      rw [come] at answered
      cases answered
    | ok content =>
      have without := Nat.not_le.mpr (narrow content come)
      simp only [come, if_neg without] at answered ⊢
      exact ⟨content, rfl, (Except.ok.inj answered).symm, trivial⟩

/-- **Asking for the size keeps the data exactly if the buffer gives it to its second reader too.**
A guest has asked a live buffer for its size, in either way, and been told a number; its memory is
as it was. A read of that many bytes now delivers what there was to be read, at any address with
room for it, exactly if the second reading of the buffer gives the same, and a word counts it; or if
it gives so much that the number is that of other content, and the bytes are in memory already.
Hence a memory buffer keeps all content that a word counts, a request loses all content that is not
empty, and a socket loses a message unless the next one is the same. -/
theorem size_keeps_data_iff (live : site.world.registry.find? h.toNat = some b)
    (asks : Asks h b ask arguments) (answered : (ask.run (site.passing arguments)).1 = .ok n) :
    let asked := (ask.run (site.passing arguments)).2
    ∃ content, b.read.1 = .ok content ∧ n = Call.handle content.length ∧
      asked.memory = site.memory ∧
      ∀ address : UInt32, site.memory.Holds address.toNat n.toNat →
        (Delivers asked h address n content ↔ ∃ next, b.readAgain = .ok next ∧
          Call.handle next.length = n ∧ (next = content ∧ content.length ≤ maxWord ∨
            maxWord < next.length ∧ site.memory.bytesAt address.toNat n.toNat = content)) ∧
        (b.kind = .memory → (Delivers asked h address n content ↔ content.length ≤ maxWord)) ∧
        (b.kind = .request → (Delivers asked h address n content ↔ content = [])) ∧
        ∀ (s : Exchange.SocketBuffer) kind kind' next rest, b = .socket s →
          s.inbound = .data kind content :: .data kind' next :: rest → next.length ≤ maxWord →
          (Delivers asked h address n content ↔ next = content) := by
  intro asked
  obtain ⟨content, there, rfl, left⟩ := asks.run live answered
  have again : asked.world.registry.find? h.toNat = some b.read.2 := by
    rw [show asked = _ from left]
    exact Site.find?_reading live
  have memory : asked.memory = site.memory := by
    rw [show asked = _ from left]
    rfl
  refine ⟨content, there, rfl, memory, fun address inside => ?_⟩
  have delivers : Delivers asked h address _ content ↔ _ := delivers_iff again (memory ▸ inside)
  rw [memory] at delivers
  have gives {next : Bytes} (second : b.readAgain = .ok next) :
      Delivers asked h address (Call.handle content.length) content ↔
        Call.handle next.length = Call.handle content.length ∧
          (next = content ∧ content.length ≤ maxWord ∨ maxWord < next.length ∧
            site.memory.bytesAt address.toNat (Call.handle content.length).toNat = content) := by
    rw [delivers, show b.read.2.read.1 = _ from second]
    simp only [Except.ok.injEq, exists_eq_left']
  refine ⟨delivers, fun kind => ?_, fun kind => ?_, fun s kind kind' next rest socket queue few => ?_⟩
  · rw [gives ((Exchange.Buffer.readAgain_of_memory kind).trans there)]
    refine ⟨?_, fun most => ⟨rfl, .inl ⟨rfl, most⟩⟩⟩
    rintro ⟨-, ⟨-, most⟩ | ⟨large, held⟩⟩
    · exact most
    · -- a word is too small for the number of these bytes
      have length := congrArg List.length held
      have word := (Call.handle content.length).toNat_lt
      rw [Memory.length_bytesAt] at length
      simp only [maxWord] at large ⊢
      omega
  · rw [gives (Exchange.Buffer.readAgain_of_request kind)]
    constructor
    · rintro ⟨-, ⟨same, -⟩ | ⟨large, -⟩⟩
      · exact same.symm
      · cases large
    · rintro rfl
      exact ⟨rfl, .inl ⟨rfl, Nat.zero_le _⟩⟩
  · have second : b.readAgain = .ok next := by
      rw [socket, Exchange.Buffer.readAgain_of_socket, queue]
    rw [gives second]
    constructor
    · rintro ⟨-, ⟨same, -⟩ | ⟨large, -⟩⟩
      · exact same
      · omega
    · rintro rfl
      exact ⟨rfl, .inl ⟨rfl, few⟩⟩

/-- A guest with sixteen bytes of memory and a request whose body nobody has read. -/
def requested : Site where
  arguments := []
  memory := .zeros 16
  invocation := (Context.top "reader" "run").toInvocation
  process := .unbound
  world := ((World.fresh .offline 0).register
    (.request ⟨.empty, some ⟨[0x61, 0x62, 0x63], false⟩⟩)).2

/-- A guest that asks a request for the size of its body, and then for the body, loses it. -/
theorem size_keeps_data_iff_requested :
    (bufferSize.run (requested.passing [.i32 1])).1 = .ok 3 ∧
      ∀ address : UInt32, address.toNat + 3 ≤ 16 →
        ¬ Delivers (bufferSize.run (requested.passing [.i32 1])).2 1 address 3 [0x61, 0x62, 0x63] := by
  have live : requested.world.registry.find? (1 : UInt32).toNat =
      some (.request ⟨.empty, some ⟨[0x61, 0x62, 0x63], false⟩⟩) := rfl
  have answered : (bufferSize.run (requested.passing [.i32 1])).1 = .ok 3 := rfl
  obtain ⟨content, there, -, -, delivers⟩ := size_keeps_data_iff live .size answered
  obtain rfl := Except.ok.inj there
  refine ⟨answered, fun address inside given => ?_⟩
  have nothing := (delivers address inside).2.2.1 rfl
  cases nothing.mp given

end Core

end GuestHost
