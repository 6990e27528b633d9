import GuestHost.Proofs.HostCalls.Replies
import GuestHost.Proofs.HostCalls.Safety
/-!
# Arguments by address

A call by name hands its arguments over in memory: the guest says where they are and how many. The
number of bytes that they take stops at the greatest word, and it is this number that has to lie in
memory and that is cut into integers. So the guest that is called gets the integers at the addresses
where they stand, but never more than fit into the greatest word: `arguments_of_request`. Where a
row is longer and what fits is in memory, it gets a shorter one, whether the rest is in memory or
not: `marshals_iff`.
-/

namespace GuestHost

open Stateful Posix.Syscall

/-! ## Integers in memory -/

/-- The integer that four bytes of memory spell, the least significant one first. -/
def Memory.integerAt (m : Memory) (address : Nat) : Int32 :=
  (UInt32.ofNat (Bytes.toWord (m.bytesAt address 4))).toInt32

/-- A row of integers. -/
def Memory.integersFrom (m : Memory) (address count : Nat) : List Int32 :=
  (List.range count).map fun i => m.integerAt (address + 4 * i)

namespace Memory

variable {m : Memory} {address count : Nat}

@[simp] theorem length_integersFrom : (m.integersFrom address count).length = count := by
  rw [integersFrom, List.length_map, List.length_range]

theorem integersFrom_succ : m.integersFrom address (count + 1) =
    m.integerAt address :: m.integersFrom (address + 4) count := by
  rw [integersFrom, integersFrom, List.range_succ_eq_map, List.map_cons, List.map_map]
  refine congrArg (_ :: ·) (List.map_congr_left fun i _ => congrArg m.integerAt ?_)
  rw [Nat.mul_succ, ← Nat.add_assoc, Nat.add_right_comm]

end Memory

/-- The integers that a range spells stand in it one behind the other; up to three bytes at its end
are left over. -/
theorem Nesting.integers_bytesAt (m : Memory) (address length : Nat) :
    integers (m.bytesAt address length) = m.integersFrom address (length / 4) := by
  match length with
  | 0 | 1 | 2 | 3 => rfl
  | rest + 4 =>
    rw [Nat.add_comm, m.bytesAt_add, Nat.add_div_left rest (by decide), Memory.integersFrom_succ,
      ← integers_bytesAt m (address + 4) rest]
    rfl

theorem satMul_four_div (count : Nat) : satMul count 4 / 4 = min count (maxWord / 4) := by
  simp only [satMul, maxWord]
  omega

/-- A row of integers is as long as it should be, or what fits into the greatest word. -/
theorem satMul_four_cases (count : Nat) :
    count ≤ maxWord / 4 ∧ satMul count 4 = 4 * count ∨
      maxWord / 4 < count ∧ satMul count 4 = maxWord := by
  simp only [satMul, maxWord]
  omega

/-! ## What a call by name asks for -/

/-- The integers of a range in the guest's memory. -/
def Site.integers? (site : Site) (address length : Nat) : Option (Thunk (List Int32)) :=
  if site.memory.Holds address length then
    some (.pure (site.memory.integersFrom address (length / 4)))
  else none

/-- The context in which a call by name invokes a guest. -/
def Site.named? (site : Site) : Option Context :=
  (site.text? 0 1).bind fun guest => (site.text? 2 3).bind fun entry =>
    (argument? site 4).bind fun address => (argument? site 5).bind fun count =>
      (site.integers? address (satMul count 4)).bind fun arguments =>
        (site.text? 6 7).bind fun name => (Mode.ofText? name).bind fun mode =>
          (argument? site 8).bind fun input => (argument? site 9).bind fun output =>
            let context := Context.nested site.invocation guest entry
            some (((context.withGiven arguments).withMode mode).withBuffers input output)

namespace Nesting

open Call

theorem reads_integersAt (address length : Nat) :
    Reads (integersAt address length) fun site => site.integers? address length := by
  have spelled : (fun site : Site => site.integers? address length) = fun site =>
      (if site.memory.Holds address length then some (site.memory.bytesAt address length)
        else none).bind fun bytes => some (.pure (integers bytes)) := by
    funext site
    unfold Site.integers?
    split
    · rw [Option.bind_some, integers_bytesAt]
    · rfl
  rw [integersAt_eq, spelled]
  exact (reads_slice address length).bind fun bytes => reads_pure _

theorem reads_namedContext : Reads namedContext Site.named? :=
  (reads_text 0 1).bind fun guest => (reads_text 2 3).bind fun entry =>
    (reads_word 4).bind fun address => (reads_word 5).bind fun count =>
      (reads_integersAt address (satMul count 4)).bind fun arguments =>
        (reads_text 6 7).bind fun name => by
          cases Mode.ofText? name with
          | none => exact fun _ => ⟨rfl, rfl⟩
          | some mode =>
            exact (reads_word 8).bind fun input => (reads_word 9).bind fun output => fun _ =>
              ⟨rfl, rfl⟩

/-- A call by name asks for an invocation in the context that it is told of, if it is told of
one. -/
theorem request?_callFunction (site : Site) :
    (Backing.handler .callFunction).request? site =
      site.named?.map fun context => ⟨.name, context, site.world⟩ := by
  obtain ⟨same, seen⟩ := reads_namedContext site
  rw [Backing.request?, ← seen]
  generalize namedContext.run site = come at same ⊢
  obtain ⟨outcome, after⟩ := come
  obtain rfl := same
  cases outcome <;> rfl

end Nesting

/-! ## What the guest that is called gets -/

theorem Posix.Syscall.argument?_of_passed {site : Site} {index : Nat} {word : UInt32}
    (passed : site.arguments[index]? = some (.i32 word)) :
    argument? site index = some word.toNat := by
  rw [argument?, passed]

/-- A word that is declared is there. -/
theorem Posix.Syscall.argument?_of_fits {site : Site} {types : List Wasm.ValType}
    (fits : site.Fits types) {index : Nat} (declared : types[index]? = some .i32) :
    ∃ n, argument? site index = some n := by
  obtain ⟨value, i32, run⟩ := Call.run_argument_of_fits fits declared
  have passed : (Call.argument index).run site = _ := run
  rcases run_word_cases index site with ⟨n, found, -⟩ | ⟨-, e, failed⟩
  · exact ⟨n, found⟩
  · rw [Call.word, run_bind, passed] at failed
    cases value with
    | i32 word => cases failed
    | _ => cases i32

namespace Site

variable {site : Site} {address count : UInt32}

/-- The texts of a call by name are texts, and one of them is the name of a mode. -/
structure Names (site : Site) : Prop where
  guest : ∃ guest, site.text? 0 1 = some guest
  entry : ∃ entry, site.text? 2 3 = some entry
  mode : ∃ name mode, site.text? 6 7 = some name ∧ Mode.ofText? name = some mode

/-- **The arguments of a call by name** are the integers where they stand, as many as asked for or
as fit into the greatest word. -/
theorem arguments_of_named? (at4 : site.arguments[4]? = some (.i32 address))
    (at5 : site.arguments[5]? = some (.i32 count)) {context : Context}
    (named : site.named? = some context) :
    context.arguments =
      site.memory.integersFrom address.toNat (min count.toNat (maxWord / 4)) := by
  simp only [named?, argument?_of_passed at4, argument?_of_passed at5, Option.bind_some,
    Option.bind_eq_some_iff] at named
  obtain ⟨guest, -, entry, -, arguments, found, name, -, mode, -, input, -, output, -, same⟩ :=
    named
  unfold integers? at found
  split at found
  · obtain rfl := Option.some.inj found
    obtain rfl := Option.some.inj same
    rw [← satMul_four_div]
    rfl
  · cases found

/-- **When a call by name is told of a context.** -/
theorem exists_named?_iff (fits : site.Fits (Core.words 10))
    (at4 : site.arguments[4]? = some (.i32 address))
    (at5 : site.arguments[5]? = some (.i32 count)) :
    (∃ context, site.named? = some context) ↔
      site.Names ∧ site.memory.Holds address.toNat (satMul count.toNat 4) := by
  simp only [named?, argument?_of_passed at4, argument?_of_passed at5, Option.bind_some,
    Option.bind_eq_some_iff]
  constructor
  · rintro ⟨context, guest, called, entry, entered, arguments, found, name, named, mode, known, -⟩
    refine ⟨⟨⟨guest, called⟩, ⟨entry, entered⟩, ⟨name, mode, named, known⟩⟩, ?_⟩
    by_contra outside
    rw [integers?, if_neg outside] at found
    cases found
  · rintro ⟨⟨⟨guest, called⟩, ⟨entry, entered⟩, ⟨name, mode, named, known⟩⟩, inside⟩
    obtain ⟨input, at8⟩ := argument?_of_fits fits (show (Core.words 10)[8]? = some .i32 from rfl)
    obtain ⟨output, at9⟩ := argument?_of_fits fits (show (Core.words 10)[9]? = some .i32 from rfl)
    exact ⟨_, guest, called, entry, entered, _, if_pos inside, name, named, mode, known, input,
      at8, output, at9, rfl⟩

end Site

namespace HostFunction

/-- A call by name hands a row of arguments over. The guest that is called gets all of them and no
others; a row that is not all in memory gives the sentinel, and no guest is called. -/
structure Marshals (f : HostFunction) (site : Site) (address count : Nat) : Prop where
  given : ∀ r, f.backing.request? site = some r →
    r.context.arguments = site.memory.integersFrom address count
  outside : (∃ a, address ≤ a ∧ a < address + 4 * count ∧ site.memory.size ≤ a) →
    f.backing.request? site = none ∧ ∀ platform, f.outcomeAt platform site = .ok [.i32 sentinel]

variable {f : HostFunction} {site : Site} {address count : UInt32}

theorem typed_callFunction (bound : Core.provider.Binds f) (byName : f.name = "call_function") :
    f.Typed "call_function" (.i32s 10) .callFunction := by
  rcases bound.offered Core.offers_typed with ⟨call, hcall, typed⟩ | typed
  · exact absurd (typed.name_eq.symm.trans byName) (Core.ne_callFunction call hcall)
  · exact typed

/-- **When a row of arguments is handed over** by a call by name. It is if it fits into the greatest
word, whatever the guest's memory is. A longer one is not if what fits of it is in memory, so that
the guest is called: it gets what fits, which is one integer less than 2^30 of them. -/
theorem marshals_iff (bound : Core.provider.Binds f) (byName : f.name = "call_function")
    (fits : site.Fits f.type.params) (at4 : site.arguments[4]? = some (.i32 address))
    (at5 : site.arguments[5]? = some (.i32 count)) :
    (f.Marshals site address.toNat count.toNat ↔
      ¬ (maxWord / 4 < count.toNat ∧ site.memory.Holds address.toNat maxWord ∧ site.Names)) ∧
    ∀ r, f.backing.request? site = some r → r.context.arguments =
      site.memory.integersFrom address.toNat (min count.toNat (maxWord / 4)) := by
  have typed := typed_callFunction bound byName
  have request : f.backing.request? site = _ :=
    typed.backing_eq ▸ Nesting.request?_callFunction site
  have words : f.type.params = Core.words 10 := typed.params_eq
  have asks := Site.exists_named?_iff (words ▸ fits) at4 at5
  have handed (r : Request) (asked : f.backing.request? site = some r) : r.context.arguments =
      site.memory.integersFrom address.toNat (min count.toNat (maxWord / 4)) := by
    obtain ⟨context, named, rfl⟩ := Option.map_eq_some_iff.mp (request ▸ asked)
    exact Site.arguments_of_named? at4 at5 named
  have sizes := satMul_four_cases count.toNat
  refine ⟨⟨fun marshals ⟨long, inside, names⟩ => ?_, fun short => ?_⟩, handed⟩
  · have whole : satMul count.toNat 4 = maxWord := by omega
    obtain ⟨context, named⟩ := asks.mpr ⟨names, whole ▸ inside⟩
    have asked : f.backing.request? site = some ⟨.name, context, site.world⟩ := by
      rw [request, named]
      rfl
    have lengths := congrArg List.length ((marshals.given _ asked).symm.trans (handed _ asked))
    rw [Memory.length_integersFrom, Memory.length_integersFrom] at lengths
    omega
  · -- where the guest is called, nothing had to stop
    have whole (r : Request) (asked : f.backing.request? site = some r) :
        count.toNat ≤ maxWord / 4 ∧ site.memory.Holds address.toNat (4 * count.toNat) := by
      obtain ⟨context, named, -⟩ := Option.map_eq_some_iff.mp (request ▸ asked)
      obtain ⟨names, inside⟩ := asks.mp ⟨context, named⟩
      rcases sizes with ⟨fit, unstopped⟩ | ⟨long, stopped⟩
      · exact ⟨fit, unstopped ▸ inside⟩
      · exact absurd ⟨long, stopped ▸ inside, names⟩ short
    constructor
    · intro r asked
      rw [handed r asked, Nat.min_eq_left (whole r asked).1]
    · rintro ⟨a, -, lt, out⟩
      have unasked : f.backing.request? site = none := by
        refine Option.eq_none_iff_forall_ne_some.mpr fun r asked => ?_
        have inside : _ ≤ _ := (whole r asked).2
        omega
      exact ⟨unasked, fun platform => (outcomeAt_byName platform typed fits).1 unasked⟩

/-- A call by name is bound for a guest that imports it. -/
theorem binds_callFunction :
    Core.provider.Binds (coreFunction "call_function" (.i32s 10) .callFunction) := binds_alone rfl

/-- Where a guest that has all the memory that words can address makes a call by name: its texts are
empty, and it asks for one argument more than there are in memory. -/
def vast : Site :=
  { bare ((List.replicate 10 (.i32 0)).set 5 (.i32 0x40000001)) with
    memory := .zeros (maxWord + 1) }

/-- The guest is called all the same, and it gets two arguments less. -/
theorem marshals_iff_vast :
    ¬ (coreFunction "call_function" (.i32s 10) .callFunction).Marshals vast 0 0x40000001 := by
  have size : vast.memory.size = maxWord + 1 := rfl
  have inside : vast.memory.Holds 0 0 := Nat.zero_le _
  have empty {i j : Nat} (offset : argument? vast i = some 0) (length : argument? vast j = some 0) :
      vast.text? i j = some "" := by
    have bytes : vast.bytes? i j = some [] := by
      simp only [Site.bytes?, offset, length, Option.bind_eq_bind, Option.bind_some, if_pos inside]
      rfl
    rw [Site.text?, bytes]
    rfl
  have names : vast.Names :=
    ⟨⟨"", empty rfl rfl⟩, ⟨"", empty rfl rfl⟩, ⟨"", .direct, empty rfl rfl, rfl⟩⟩
  have short := (@marshals_iff _ vast 0 0x40000001 binds_callFunction rfl rfl rfl rfl).1
  refine fun marshals => short.mp marshals ⟨by decide, ?_, names⟩
  rw [Memory.Holds, size]
  decide

end HostFunction

end GuestHost
