import GuestHost.Proofs.HostCalls.Answers
/-!
# The books that core functions keep

A call of a core function that fails is not entered in the books of the registry, a reply enters
one new handle with the answer behind it, a handle freed is struck off, and nothing else is entered:
`Core.booked`. So along a row of such calls the live handles are those that there were and those
handed out, less those taken back: `Core.buffers_accounted`. The host calls of a run are such a row,
`Sandbox.accounted_run`.
-/

namespace GuestHost

open Stateful Exchange Posix.Syscall

/-! ## The keys of tables -/

namespace Table

variable {κ ν : Type} [LT κ] [KeyOrder κ] [DecidableEq κ]

theorem keys_insert [DecidableLT κ] {t : Table κ ν} {key : κ} (absent : t.find? key = none)
    (value : ν) : (t.insert key value).keys.Perm (key :: t.keys) := by
  have new : key ∉ t.keys := by
    rw [mem_keys_iff, absent]
    exact Bool.false_ne_true
  refine (List.perm_ext_iff_of_nodup (nodup_keys _) (List.nodup_cons.mpr ⟨new, nodup_keys t⟩)).mpr
    fun other => ?_
  rw [List.mem_cons, mem_keys_iff, mem_keys_iff, find?_insert]
  by_cases same : other = key <;> simp [same]

theorem keys_erase {t : Table κ ν} {key : κ} (present : (t.find? key).isSome) :
    t.keys.Perm (key :: (t.erase key).keys) := by
  have gone : key ∉ (t.erase key).keys := by
    rw [mem_keys_iff, find?_erase, if_pos rfl]
    exact Bool.false_ne_true
  refine (List.perm_ext_iff_of_nodup (nodup_keys t)
    (List.nodup_cons.mpr ⟨gone, nodup_keys _⟩)).mpr fun other => ?_
  rw [List.mem_cons, mem_keys_iff, mem_keys_iff, find?_erase]
  by_cases same : other = key
  · simp [same, present]
  · simp [same]

end Table

/-! ## Handles that come and go -/

namespace Exchange.Registry

variable {r : Registry} {handle : Nat}

/-- A new handle stands for the new buffer. -/
theorem find?_register_self (r : Registry) (buffer : Buffer) :
    (r.register buffer).find? r.nextHandle = some buffer := by
  unfold find?
  rw [place?_register, if_pos rfl]
  simp [at?, register]

/-- A live handle that is released is struck off. -/
theorem books_release (live : r.isLive handle = true) :
    (r.release handle).books =
      { r.books with handles := r.handles.erase handle, released := r.released + 1 } := by
  obtain ⟨place, found⟩ := Option.isSome_iff_exists.mp live
  unfold release
  rw [found]
  rfl

theorem release_of_not_live (gone : r.isLive handle = false) : r.release handle = r := by
  have absent : r.place? handle = none := by simpa [isLive] using gone
  unfold release
  rw [absent]

end Exchange.Registry

namespace Core

open Call

/-! ## Calls that make no reply -/

/-- A core function that neither makes buffers nor frees them leaves the books as they are. -/
theorem books_of_plain : ∀ call ∈ calls, call.1 ∉ buffering → ∀ site : Site,
    (call.2.2.run site).2.world.registry.books = site.world.registry.books := by
  intro call listed plain site
  exact (tame_calls (World.steady_books site.world.registry.books) call listed
    (fun buffers => absurd buffers plain) site rfl).2.1

/-- **Freeing a buffer** takes the live handle that it is given, or fails and takes none. -/
theorem run_freeBuffer (site : Site) :
    (∃ h, argument? site 0 = some h ∧ site.world.registry.isLive h = true ∧
        (freeBuffer.run site).1 = .ok 0 ∧
        (freeBuffer.run site).2.world.registry = site.world.registry.release h) ∨
      (∃ e, (freeBuffer.run site).1 = .error e) ∧
        (freeBuffer.run site).2.world.registry = site.world.registry := by
  unfold freeBuffer
  rcases run_word_cases 0 site with ⟨h, passed, run⟩ | ⟨-, e, run⟩
  · simp only [run_bind, run, run_world, run_setWorld]
    cases live : site.world.registry.isLive h with
    | true =>
      rw [if_pos (show (site.world.release h).1 = true from live)]
      exact .inl ⟨h, passed, live, rfl, rfl⟩
    | false =>
      rw [if_neg (by rw [show (site.world.release h).1 = false from live]; decide)]
      exact .inr ⟨⟨_, rfl⟩, Registry.release_of_not_live live⟩
  · rw [run_bind, run]
    exact .inr ⟨⟨e, rfl⟩, rfl⟩

end Core

/-! ## One call -/

namespace HostCall

/-- What the backing of a host call comes to, before a failure that the guest survives becomes the
sentinel. -/
def performed (invoke : Invoke) (c : HostCall) : Except CallError UInt32 :=
  ((c.function.backing.run invoke).run c.site).1

/-- The registry before a host call. -/
abbrev before (c : HostCall) : Registry := c.site.world.registry

/-- The registry after a host call. -/
abbrev left (invoke : Invoke) (c : HostCall) : Registry := (c.after invoke).world.registry

/-- A call of a core function, but the call by name, with arguments of its types and with a word
that is no handle yet if it is to reply. -/
structure OfCore (c : HostCall) : Prop where
  bound : Core.provider.Binds c.function
  named : c.function.name ≠ "call_function"
  fits : c.site.Fits c.function.type.params
  room : c.function.name ∈ Core.replying → c.before.liveCount < maxWord

/-- How a call of a core function is entered in the books of the registry. -/
structure Booked (invoke : Invoke) (c : HostCall) : Prop where
  /-- A call that fails is not entered. -/
  failed : ∀ e, c.performed invoke = .error e →
    c.outcome invoke = .ok [.i32 sentinel] ∧ (c.left invoke).books = c.before.books
  /-- A reply is a handle that was not live, behind which there is the answer, as it should be, and
  nothing else; it is the only one that is entered. -/
  replied : ∀ n, c.performed invoke = .ok n → c.function.name ∈ Core.replying →
    c.outcome invoke = .ok [.i32 n] ∧ c.before.isLive n.toNat = false ∧
      (∃ content, Core.result? c.site c.function.name = some content ∧
        Core.Answers c.site c.function.name content ∧
        (c.left invoke).find? n.toNat = some (.memory (.ofContent content))) ∧
      (c.left invoke).books =
        { c.before.books with
          next := Registry.following n.toNat
          handles := c.before.handles.insert n.toNat c.before.buffers.size
          places := c.before.buffers.size + 1
          created := c.before.created + 1 }
  /-- A handle freed was live, and it is the only one that is struck off. -/
  freed : ∀ n, c.performed invoke = .ok n → c.function.name = "free_buffer" →
    ∃ h, argument? c.site 0 = some h ∧ c.before.isLive h = true ∧
      (c.left invoke).books =
        { c.before.books with
          handles := c.before.handles.erase h
          released := c.before.released + 1 }
  /-- Nothing else is entered. -/
  kept : ∀ n, c.performed invoke = .ok n → c.function.name ∉ Core.buffering →
    (c.left invoke).books = c.before.books

end HostCall

namespace Core

open HostFunction

variable {c : HostCall} (invoke : Invoke)

/-- A core function but the call by name is a host call of the table. -/
theorem exists_call_of_binds {f : HostFunction} (bound : Core.provider.Binds f)
    (named : f.name ≠ "call_function") :
    ∃ call ∈ calls, f.Typed call.1 (.i32s call.2.1) (.native call.2.2) := by
  rcases bound.offered offers_typed with typed | typed
  · exact typed
  · exact absurd typed.name_eq named

/-- What a core function leaves of the registry, a host call of it leaves. -/
theorem left_of_typed {call : String × Nat × Call UInt32}
    (typed : c.function.Typed call.1 (.i32s call.2.1) (.native call.2.2)) :
    c.performed invoke = (call.2.2.run c.site).1 ∧
      c.left invoke = (call.2.2.run c.site).2.world.registry := by
  refine ⟨?_, (c.function.registry_call invoke c.site).trans ?_⟩
  · rw [HostCall.performed, typed.backing_eq]
    rfl
  · rw [typed.backing_eq]
    rfl

/-- A call of a core function hands its guest the word that it comes to or, if it fails, the
sentinel. -/
theorem outcome_of_core (core : c.OfCore) :
    c.outcome invoke = .ok [.i32 ((c.performed invoke).toOption.getD sentinel)] := by
  obtain ⟨call, listed, typed⟩ := exists_call_of_binds core.bound core.named
  have tame := tame_calls World.steady_true call listed fun _ => World.roomy_true
  have fits := core.fits
  rw [typed.params_eq] at fits
  rw [HostCall.outcome, typed.run_call rfl, run_value_of_tame typed.backing_eq tame fits,
    (left_of_typed invoke typed).1]
  rfl

variable {invoke} in
theorem outcome_of_failed (core : c.OfCore) {e : CallError}
    (failed : c.performed invoke = .error e) : c.outcome invoke = .ok [.i32 sentinel] := by
  rw [outcome_of_core invoke core, failed]
  rfl

variable {invoke} in
theorem outcome_of_performed (core : c.OfCore) {n : UInt32}
    (performed : c.performed invoke = .ok n) : c.outcome invoke = .ok [.i32 n] := by
  rw [outcome_of_core invoke core, performed]
  rfl

/-- **A call of a core function that replies** hands over a new handle with the answer behind it, or
fails for want of one and is not entered. -/
theorem reply_of_call (bound : Core.provider.Binds c.function)
    (replies : c.function.name ∈ replying) :
    match result? c.site c.function.name with
    | some content =>
      c.performed invoke = .ok (Call.handle c.before.nextHandle) ∧
        ∃ r : Registry, r.books = c.before.books ∧
          c.left invoke = r.register (.memory (.ofContent content))
    | none => (∃ e, c.performed invoke = .error e) ∧ (c.left invoke).books = c.before.books := by
  have named : c.function.name ≠ "call_function" :=
    ne_of_mem_of_not_mem replies (by decide)
  obtain ⟨call, listed, typed⟩ := exists_call_of_binds bound named
  obtain ⟨performed, left⟩ := left_of_typed invoke typed
  rw [performed, left, typed.name_eq]
  exact replies_calls call listed (typed.name_eq ▸ replies) c.site

/-- **The answer is behind the handle handed over.** -/
theorem replied_of_result (bound : Core.provider.Binds c.function)
    (replies : c.function.name ∈ replying) (ready : c.before.Ready) {content : Bytes}
    (answer : result? c.site c.function.name = some content) :
    ∃ n : UInt32, c.performed invoke = .ok n ∧ n.toNat = c.before.nextHandle ∧
      (c.left invoke).find? n.toNat = some (.memory (.ofContent content)) ∧
      (c.left invoke).books = (c.before.register (.memory (.ofContent content))).books := by
  have replied := reply_of_call invoke bound replies
  rw [answer] at replied
  obtain ⟨performed, r, books, left⟩ := replied
  have next : (Call.handle c.before.nextHandle).toNat = c.before.nextHandle :=
    Call.toNat_handle ready.nextHandle_le
  refine ⟨_, performed, next, ?_, ?_⟩
  · rw [next, left, ← Registry.nextHandle_eq_of_books books]
    exact r.find?_register_self _
  · rw [left, Registry.books_register books, Registry.books_register rfl]

theorem freeing_buffers : "free_buffer" ∈ buffering := by decide

theorem freeing_no_reply : "free_buffer" ∉ replying := by decide

theorem eq_of_freeing : ∀ call ∈ calls, call.1 = "free_buffer" → call.2.2 = freeBuffer := by
  simp [calls]

/-- What makes buffers or frees them either replies or is the function that frees. -/
theorem freeing_of_buffering {name : String} (listed : name ∈ buffering)
    (plain : name ∉ replying) : name = "free_buffer" := by
  by_contra other
  exact plain ((List.mem_erase_of_ne other).mpr listed)

/-- A reply is booked with its handle, and the want of one not at all. -/
theorem booked_of_replying (core : c.OfCore) (replies : c.function.name ∈ replying)
    (ready : c.before.Ready) : c.Booked invoke := by
  have buffers : c.function.name ∈ buffering := List.mem_of_mem_erase replies
  have other : c.function.name ≠ "free_buffer" :=
    ne_of_mem_of_not_mem replies freeing_no_reply
  cases answer : result? c.site c.function.name with
  | none =>
    have replied := reply_of_call invoke core.bound replies
    rw [answer] at replied
    obtain ⟨⟨e, failed⟩, books⟩ := replied
    exact
      { failed := fun _ failed => ⟨outcome_of_failed core failed, books⟩
        replied := fun n made => by rw [failed] at made; cases made
        freed := fun _ _ same => absurd same other
        kept := fun _ _ plain => absurd buffers plain }
  | some content =>
    obtain ⟨n, made, next, found, books⟩ :=
      replied_of_result invoke core.bound replies ready answer
    refine
      { failed := fun e failed => by rw [made] at failed; cases failed
        replied := fun m made' _ => ?_
        freed := fun _ _ same => absurd same other
        kept := fun _ _ plain => absurd buffers plain }
    obtain rfl : n = m := Except.ok.inj (made.symm.trans made')
    refine ⟨outcome_of_performed core made, ?_,
      ⟨content, answer, answers_of_result answer, found⟩, ?_⟩
    · rw [next]
      exact ready.isLive_nextHandle (core.room replies)
    · rw [books, Registry.books_register rfl, next]

/-- Freeing a handle is booked if it was live. -/
theorem booked_of_freeing (core : c.OfCore) (frees : c.function.name = "free_buffer") :
    c.Booked invoke := by
  obtain ⟨call, listed, typed⟩ := exists_call_of_binds core.bound core.named
  obtain ⟨performed, left⟩ := left_of_typed invoke typed
  have run := run_freeBuffer c.site
  rw [← eq_of_freeing call listed (typed.name_eq.symm.trans frees), ← performed, ← left] at run
  have buffers : c.function.name ∈ buffering := frees ▸ freeing_buffers
  have silent : c.function.name ∉ replying := frees ▸ freeing_no_reply
  rcases run with ⟨h, passed, live, made, released⟩ | ⟨⟨e, failed⟩, same⟩
  · exact
      { failed := fun e failed => by rw [made] at failed; cases failed
        replied := fun _ _ listed => absurd listed silent
        freed := fun _ _ _ => ⟨h, passed, live, released ▸ Registry.books_release live⟩
        kept := fun _ _ plain => absurd buffers plain }
  · exact
      { failed := fun _ failed => ⟨outcome_of_failed core failed, congrArg Registry.books same⟩
        replied := fun _ _ listed => absurd listed silent
        freed := fun n made => by rw [failed] at made; cases made
        kept := fun _ _ plain => absurd buffers plain }

/-- What neither makes buffers nor frees them is not booked. -/
theorem booked_of_plain (core : c.OfCore) (plain : c.function.name ∉ buffering) :
    c.Booked invoke := by
  obtain ⟨call, listed, typed⟩ := exists_call_of_binds core.bound core.named
  have kept : (c.left invoke).books = c.before.books := by
    rw [(left_of_typed invoke typed).2]
    exact books_of_plain call listed (typed.name_eq ▸ plain) c.site
  exact
    { failed := fun _ failed => ⟨outcome_of_failed core failed, kept⟩
      replied := fun _ _ listed => absurd (List.mem_of_mem_erase listed) plain
      freed := fun _ _ same => absurd (same ▸ freeing_buffers) plain
      kept := fun _ _ _ => kept }

/-- **How a call of a core function is entered in the books.** -/
theorem booked (core : c.OfCore) (ready : c.before.Ready) : c.Booked invoke := by
  by_cases replies : c.function.name ∈ replying
  · exact booked_of_replying invoke core replies ready
  by_cases buffers : c.function.name ∈ buffering
  · exact booked_of_freeing invoke core (freeing_of_buffering buffers replies)
  · exact booked_of_plain invoke core buffers

end Core

/-! ## A row of calls -/

namespace HostCall

variable {invoke : Invoke} {c : HostCall} {row : List HostCall} {w w' : World}

/-- The handle that a host call hands out with a reply. -/
def handedOut (invoke : Invoke) (c : HostCall) : List Nat :=
  match c.performed invoke with
  | .ok n => if c.function.name ∈ Core.replying then [n.toNat] else []
  | .error _ => []

/-- The handle that a host call takes back. -/
def takenBack (invoke : Invoke) (c : HostCall) : List Nat :=
  match c.performed invoke with
  | .ok _ => if c.function.name = "free_buffer" then (argument? c.site 0).toList else []
  | .error _ => []

/-- The handles and the counts of a registry `r'` are those of `r` with some handles handed out and
some taken back. -/
structure Accounted (out back : List Nat) (r r' : Registry) : Prop where
  handles : (r'.handles.keys ++ back).Perm (r.handles.keys ++ out)
  created : r'.created = r.created + out.length
  released : r'.released = r.released + back.length

theorem accounted_of_books {r r' : Registry} (same : r'.books = r.books) :
    Accounted [] [] r r' := by
  obtain ⟨-, handles, -, created, released⟩ := Registry.Books.mk.inj same
  exact ⟨by rw [handles], created, released⟩

theorem Accounted.append {out out' back back' : List Nat} {r r' r'' : Registry}
    (first : Accounted out back r r') (second : Accounted out' back' r' r'') :
    Accounted (out ++ out') (back ++ back') r r'' where
  handles := by
    have before := List.perm_iff_count.mp first.handles
    have after := List.perm_iff_count.mp second.handles
    refine List.perm_iff_count.mpr fun handle => ?_
    have := before handle
    have := after handle
    simp only [List.count_append] at *
    omega
  created := by rw [second.created, first.created, List.length_append, Nat.add_assoc]
  released := by rw [second.released, first.released, List.length_append, Nat.add_assoc]

/-- **One call** is accounted for by the handle that it hands out or takes back. -/
theorem Booked.accounted (booked : c.Booked invoke) :
    Accounted (c.handedOut invoke) (c.takenBack invoke) c.before (c.left invoke) := by
  unfold handedOut takenBack
  cases made : c.performed invoke with
  | error e => exact accounted_of_books (booked.failed e made).2
  | ok n =>
    dsimp only
    by_cases replies : c.function.name ∈ Core.replying
    · have frees : c.function.name ≠ "free_buffer" :=
        ne_of_mem_of_not_mem replies Core.freeing_no_reply
      obtain ⟨-, unused, -, books⟩ := booked.replied n made replies
      obtain ⟨-, handles, -, created, released⟩ := Registry.Books.mk.inj books
      rw [if_pos replies, if_neg frees]
      refine ⟨?_, created, released⟩
      rw [handles, List.append_nil]
      exact (Table.keys_insert (by simpa [Registry.isLive, Registry.place?] using unused) _).trans
        (List.perm_append_singleton _ _).symm
    rw [if_neg replies]
    by_cases frees : c.function.name = "free_buffer"
    · obtain ⟨h, passed, live, books⟩ := booked.freed n made frees
      obtain ⟨-, handles, -, created, released⟩ := Registry.Books.mk.inj books
      rw [if_pos frees, passed]
      refine ⟨?_, created, released⟩
      rw [handles, List.append_nil]
      exact (List.perm_append_singleton _ _).trans (Table.keys_erase live).symm
    · rw [if_neg frees]
      refine accounted_of_books (booked.kept n made fun listed => ?_)
      exact frees (Core.freeing_of_buffering listed replies)

/-- A call leaves a registry that can hand out handles. -/
theorem Booked.ready (booked : c.Booked invoke) (ready : c.before.Ready) :
    (c.left invoke).Ready := by
  have next : (c.left invoke).next = c.before.next ∨
      ∃ n, (c.left invoke).next = Registry.following n := by
    have kept {r : Registry} (same : r.books = c.before.books) : r.next = c.before.next :=
      (Registry.Books.mk.inj same).1
    cases made : c.performed invoke with
    | error e => exact .inl (kept (booked.failed e made).2)
    | ok n =>
      by_cases replies : c.function.name ∈ Core.replying
      · exact .inr ⟨_, (Registry.Books.mk.inj (booked.replied n made replies).2.2.2).1⟩
      by_cases frees : c.function.name = "free_buffer"
      · obtain ⟨h, -, -, books⟩ := booked.freed n made frees
        exact .inl (Registry.Books.mk.inj books).1
      · exact .inl (kept (booked.kept n made fun listed =>
          frees (Core.freeing_of_buffering listed replies)))
  rcases next with same | ⟨n, moved⟩
  · exact ⟨same ▸ ready.pos, same ▸ ready.le⟩
  · exact ⟨moved ▸ Registry.following_pos n, moved ▸ Registry.following_le n⟩

/-- Host calls one after the other: each of them finds the world that the one before it has left,
the first of them `w`, and the last leaves `w'`. Their arguments, and what is done to memory between
them, are any. -/
def Row (invoke : Invoke) : World → List HostCall → World → Prop
  | w, [], w' => w' = w
  | w, c :: rest, w' => c.site.world = w ∧ Row invoke (c.after invoke).world rest w'

/-- **A row of calls** is accounted for call by call. -/
theorem Row.accounted (made : Row invoke w row w') (ready : w.registry.Ready)
    (core : ∀ c ∈ row, c.OfCore) :
    (∀ c ∈ row, c.Booked invoke) ∧
      Accounted (row.flatMap (handedOut invoke)) (row.flatMap (takenBack invoke)) w.registry
        w'.registry := by
  induction row generalizing w with
  | nil =>
    obtain rfl : w' = w := made
    exact ⟨List.forall_mem_nil _, accounted_of_books rfl⟩
  | cons c rest ih =>
    obtain ⟨rfl, made⟩ := made
    obtain ⟨first, others⟩ := List.forall_mem_cons.mp core
    have booked := Core.booked invoke first ready
    obtain ⟨rest_booked, rest_accounted⟩ := ih made (booked.ready ready) others
    exact ⟨List.forall_mem_cons.mpr ⟨booked, rest_booked⟩,
      booked.accounted.append rest_accounted⟩

end HostCall

namespace Sandbox

variable {invoke : Invoke} {s : Sandbox}

/-- What goes on in a part of a run is a row of host calls. -/
theorem Goes.row {α : Type} {around after : Surroundings} {calls : List HostCall}
    {out : Except CallError α} (goes : Goes invoke s around calls out after) :
    HostCall.Row invoke around.world calls after.world := by
  induction goes with
  | ends | faults => exact rfl
  | fails made _ left => exact ⟨made.world_eq, left⟩
  | goesOn made _ left _ ih => exact ⟨made.world_eq, left ▸ ih⟩

/-- **A run of a guest that calls core functions only** is accounted for by the handles that its
calls hand out and take back, however it ends. -/
theorem accounted_run {limit : Option Nat} {w : World} (ready : w.registry.Ready)
    (core : ∀ c ∈ s.calls invoke limit w, c.OfCore) :
    HostCall.Accounted ((s.calls invoke limit w).flatMap (HostCall.handedOut invoke))
      ((s.calls invoke limit w).flatMap (HostCall.takenBack invoke)) w.registry
      ((s.run invoke limit).run w).2.registry := by
  have made : HostCall.Row invoke w (s.calls invoke limit w) ((s.run invoke limit).run w).2 := by
    rw [world_run]
    exact (goes_callEntry invoke s (limit.getD unlimited) (s.surroundings w)).row
  exact (made.accounted ready core).2

end Sandbox

namespace Core

open HostFunction

/-- **The live handles are those that there were, and those handed out, less those taken back.** In
every host state, along every row of calls of core functions but the call by name, with any
arguments, each call is booked as `HostCall.Booked` says: a call that fails gives the sentinel and
changes neither handles nor counts, a reply adds the handle that it returns, behind which there is
the result as `Core.Answers` tells it, a buffer freed takes its handle away, and the other calls
change nothing. -/
theorem buffers_accounted (invoke : Invoke) {w w' : World} {row : List HostCall}
    (ready : w.registry.Ready) (made : HostCall.Row invoke w row w')
    (core : ∀ c ∈ row, c.OfCore) :
    (∀ c ∈ row, c.Booked invoke) ∧
      (w'.registry.handles.keys ++ row.flatMap (HostCall.takenBack invoke)).Perm
        (w.registry.handles.keys ++ row.flatMap (HostCall.handedOut invoke)) ∧
      w'.registry.created =
        w.registry.created + (row.flatMap (HostCall.handedOut invoke)).length ∧
      w'.registry.released =
        w.registry.released + (row.flatMap (HostCall.takenBack invoke)).length := by
  obtain ⟨booked, accounted⟩ := made.accounted ready core
  exact ⟨booked, accounted.handles, accounted.created, accounted.released⟩

/-- The core function that frees a buffer, as it is bound. -/
def freeing : HostFunction :=
  coreFunction "free_buffer" (.i32s 1) (.native freeBuffer)

theorem binds_freeing : Core.provider.Binds freeing :=
  binds_coreFunction ("free_buffer", 1, freeBuffer) (by simp [calls])

/-- A guest makes a buffer and frees it twice. -/
def freedTwice (invoke : Invoke) : List HostCall :=
  let first : HostCall := ⟨creating, bare []⟩
  let second : HostCall :=
    ⟨freeing, { bare [.i32 1] with world := (first.after invoke).world }⟩
  [first, second, ⟨freeing, { bare [.i32 1] with world := (second.after invoke).world }⟩]

/-- The buffer is made and freed once; freeing it again is not booked. -/
theorem buffers_accounted_freedTwice :
    let invoke := Invocation.invoke (.standard .default) 0
    (freedTwice invoke).map (HostCall.outcome invoke) =
        [.ok [.i32 1], .ok [.i32 0], .ok [.i32 sentinel]] ∧
      ∃ w', HostCall.Row invoke (World.fresh .offline 0) (freedTwice invoke) w' ∧
        (w'.registry.handles.keys ++ [1]).Perm [1] ∧ w'.registry.created = 1 ∧
        w'.registry.released = 1 := by
  intro invoke
  have made : HostCall.Row invoke (World.fresh .offline 0) (freedTwice invoke) _ :=
    ⟨rfl, rfl, rfl, rfl⟩
  have core : ∀ c ∈ freedTwice invoke, c.OfCore := by
    have frees (site : Site) (fits : site.Fits freeing.type.params) :
        HostCall.OfCore ⟨freeing, site⟩ :=
      ⟨binds_freeing, show "free_buffer" ≠ "call_function" by decide, fits,
        fun listed => absurd listed (show "free_buffer" ∉ replying by decide +kernel)⟩
    refine List.forall_mem_cons.mpr ⟨?_, List.forall_mem_cons.mpr ⟨frees _ rfl,
      List.forall_mem_singleton.mpr (frees _ rfl)⟩⟩
    exact ⟨binds_creating, by decide, rfl, fun _ => by decide⟩
  have accounted := buffers_accounted invoke ⟨by decide, by decide⟩ made core
  exact ⟨rfl, _, made, accounted.2⟩

end Core

end GuestHost
