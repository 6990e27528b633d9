import GuestHost.Posix.Syscall
import GuestHost.Proofs.HostCalls.Accesses
/-!
# Passages at hand

The system call that writes keeps the vector before at hand, so that a table which names one range
over and over has it read once. Memory stays what it is while vectors are written, so what is at
hand is what memory has, `AtHand`, and the vectors come to what they come to if each of them is
read: `run_writePassages`, `write_eq`.
-/

namespace GuestHost

open Stateful

namespace Posix

/-- **A passage is written as its bytes are.** -/
theorem File.writePassage_eq (p : Passage) (w : World) (file : File) :
    file.writePassage p w = file.write p.bytes w := by
  cases file with
  | standardError => simp only [writePassage, write, p.length_eq, p.told_eq]
  | _ => rfl

namespace Syscall

variable {site : Site} {hand : Option ((Nat × Nat) × Passage)}

/-- What is at hand, if anything is, is what memory has in that vector. -/
def AtHand (memory : Memory) (hand : Option ((Nat × Nat) × Passage)) : Prop :=
  ∀ vector p, hand = some (vector, p) →
    memory.Holds vector.1 vector.2 ∧ p.bytes = memory.bytesAt vector.1 vector.2

/-- The passage of a vector is what memory has there, be it at hand or not. -/
theorem run_passage (valid : AtHand site.memory hand) (vector : Nat × Nat) :
    ∃ p : Passage, p.bytes = site.memory.bytesAt vector.1 vector.2 ∧
      (passage hand vector).run site =
        if site.memory.Holds vector.1 vector.2 then (.ok p, site)
        else (.error (.outOfBounds ⟨vector.1, vector.2⟩), site) := by
  unfold passage
  cases found : hand.filter (·.1 = vector) with
  | none =>
    refine ⟨.of (site.memory.bytesAt vector.1 vector.2), rfl, ?_⟩
    dsimp only
    rw [run_bind, Call.run_slice]
    by_cases inside : site.memory.Holds vector.1 vector.2
    · rw [if_pos inside, if_pos inside]
      rfl
    · rw [if_neg inside, if_neg inside]
  | some at_hand =>
    obtain ⟨held, same⟩ := Option.filter_eq_some_iff.mp found
    obtain ⟨other, p⟩ := at_hand
    obtain rfl : other = vector := of_decide_eq_true same
    obtain ⟨inside, read⟩ := valid _ _ held
    exact ⟨p, read, (if_pos inside).symm⟩

/-- To write a passage to a file is to write its bytes. -/
theorem writePassage_eq (file : File) (p : Passage) :
    writePassage file p = writeFile file p.bytes := by
  simp only [writePassage, writeFile, File.writePassage_eq]

theorem site_vector (table index : Nat) (site : Site) :
    ((vector table index).run site).2 = site := by
  unfold vector
  rw [run_bind, Call.run_load]
  by_cases address : site.memory.Holds (satAdd table (satMul index 8)) 4
  · rw [if_pos address]
    dsimp only
    rw [run_bind, Call.run_load]
    by_cases length : site.memory.Holds (satAdd (satAdd table (satMul index 8)) 4) 4
    · rw [if_pos length]
      rfl
    · rw [if_neg length]
  · rw [if_neg address]

theorem run_bind_congr {α β : Type} {x : Call α} {f g : α → Call β}
    (same : ∀ a, (f a).run (x.run site).2 = (g a).run (x.run site).2) :
    (x >>= f).run site = (x >>= g).run site := by
  rw [run_bind, run_bind]
  cases (x.run site).1 with
  | ok a => exact same a
  | error e => rfl

/-- What is noted down on the way changes the world only. -/
theorem run_heard_congr {β : Type} {c : Prop} [Decidable c] {bytes : Bytes} {f g : Call β}
    (same : ∀ w, f.run { site with world := w } = g.run { site with world := w }) :
    (if c then Call.hear bytes >>= fun _ => f else f).run site =
      (if c then Call.hear bytes >>= fun _ => g else g).run site := by
  by_cases traced : c
  · simp only [if_pos traced]
    exact run_bind_congr fun _ => same _
  · simp only [if_neg traced]
    exact same _

/-- **Vectors are written as they are with nothing at hand.** -/
theorem run_writePassages (valid : AtHand site.memory hand) (d table left index written : Nat) :
    (writePassages d table left index written hand).run site =
      (writeVectors d table left index written).run site := by
  induction left generalizing site index written hand with
  | zero => rfl
  | succ left ih =>
    rw [writePassages, writeVectors, run_bind, run_bind, site_vector]
    cases ((vector table index).run site).1 with
    | error e => rfl
    | ok v =>
      obtain ⟨p, read, fetched⟩ := run_passage valid v
      dsimp only
      rw [run_bind, fetched, run_bind, Call.run_slice, ← read]
      by_cases inside : site.memory.Holds v.1 v.2
      · have later : AtHand site.memory (some (v, p)) := fun _ _ held => by
          cases held
          exact ⟨inside, read⟩
        rw [if_pos inside, if_pos inside]
        simp only [writePassage_eq]
        refine run_bind_congr fun invocation => run_heard_congr fun w => ?_
        refine run_bind_congr fun process => ?_
        cases process.file? d with
        | none => rfl
        | some file =>
          refine run_bind_congr fun outcome => ?_
          cases outcome with
          | error e => rfl
          | ok n => exact @ih { site with world := (file.write p.bytes w).2 } _ later _ _
      · rw [if_neg inside, if_neg inside]

/-- **Writing to a descriptor comes to what it comes to if each vector is read.** -/
theorem write_eq : write = do
    let descriptor ← Call.word 0
    let table ← Call.word 1
    let count ← Call.word 2
    let result ← Call.word 3
    match ← writeVectors descriptor table count 0 0 with
    | .ok written =>
      Call.store 4 result written
      return .success
    | .error errno =>
      Call.store 4 result 0
      return errno := by
  have plain (d table left : Nat) :
      writePassages d table left 0 0 none = writeVectors d table left 0 0 :=
    funext fun site => run_writePassages (fun _ _ held => by cases held) d table left 0 0
  unfold write
  refine bind_congr fun descriptor => bind_congr fun table => bind_congr fun count =>
    bind_congr fun result => ?_
  exact congrArg (· >>= _) (plain descriptor table count)

end Syscall

end Posix

end GuestHost
