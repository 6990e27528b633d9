import GuestHost.Proofs.HostCalls.Accesses
import GuestHost.Proofs.HostCalls.Bound
import GuestHost.Proofs.HostCalls.Keeping
import GuestHost.Proofs.HostCalls.Sizes
import GuestHost.Proofs.Posix.Descriptors
/-!
# What host calls write to buffers

A use of a buffer is one of the operations that buffers have, `Usage`, and what it writes at a place
is told by its outcome, `World.writes`. Two host calls write: the core function that is given bytes,
`Core.has_writeBuffer`, and the system call that writes vectors to a descriptor, which writes those
that it gets through if the descriptor stands for an output, `Posix.Syscall.has_write`. So of each
function that a host with nothing but the core functions offers it is known what it writes,
`HostFunction.writes`, and a memory buffer holds that behind what it held before, and nothing else,
`Platform.offers_adds`.
-/

namespace GuestHost

open Stateful Exchange Posix Posix.Syscall

variable {place : Place} {content : Bytes} {w : World} {site : Site}

/-- What is given to be written is written if the outcome is a success. -/
def onSuccess {ε α : Type} (outcome : Except ε α) (given : List Bytes) : List Bytes :=
  match outcome with
  | .ok _ => given
  | .error _ => []

theorem onSuccess_nil {ε α : Type} (outcome : Except ε α) : onSuccess outcome [] = [] := by
  cases outcome <;> rfl

theorem World.Has.append_nil (h : w.Has place content) :
    w.Has place (content ++ ([] : List Bytes).flatten) := by
  rwa [List.flatten_nil, List.append_nil]

/-! ## Uses of buffers -/

namespace Exchange

/-- A use of a buffer, which answers with a value of some type. -/
inductive Usage : Type → Type where
  | header (name : String) : Usage (Option String)
  | setHeader (name value : String) : Usage Unit
  | headersCount : Usage Nat
  | headers : Usage (List (String × String))
  | statusCode : Usage Nat
  | writeStatusCode (status : Nat) : Usage Unit
  | read : Usage Bytes
  | write (content : Bytes) : Usage Nat
  | close : Usage Unit

namespace Usage

variable {α : Type}

/-- The operation on a buffer that a use is. -/
def operation : Usage α → Buffer → Except Error α × Buffer
  | header name, b => (.ok (b.header name), b)
  | setHeader name value, b => b.setHeader name value
  | headersCount, b => (b.headersCount, b)
  | headers, b => (b.headers, b)
  | statusCode, b => (b.statusCode, b)
  | writeStatusCode status, b => b.writeStatusCode status
  | read, b => b.read
  | write content, b => b.write content
  | close, b => b.close

/-- What a use writes if it succeeds. -/
def given : Usage α → List Bytes
  | write content => [content]
  | _ => []

/-- **A use that gives nothing to write is plain.** -/
theorem plain_of_given (u : Usage α) (nothing : u.given = []) : Buffer.Plain u.operation := by
  cases u with
  | write content => cases nothing
  | setHeader name value => exact Buffer.plain_setHeader name value
  | writeStatusCode status => exact Buffer.plain_writeStatusCode status
  | read => exact Buffer.plain_read
  | close => exact Buffer.plain_close
  | header name => exact Buffer.plain_look fun b => .ok (b.header name)
  | headersCount => exact Buffer.plain_look Buffer.headersCount
  | headers => exact Buffer.plain_look Buffer.headers
  | statusCode => exact Buffer.plain_look Buffer.statusCode

end Usage

end Exchange

namespace World

/-- What a use of the buffer at a place writes at one that may be another. -/
def writesAt {α : Type} (place : Place) (w : World) (target : Place) (u : Usage α) : List Bytes :=
  if target = place then onSuccess (w.useAt target u.operation).1 u.given else []

/-- What a use of the buffer of a handle writes at a place. -/
def writes {α : Type} (place : Place) (w : World) (handle : Nat) (u : Usage α) : List Bytes :=
  match w.registry.place? handle with
  | some target => w.writesAt place target u
  | none => []

/-- **A use of a buffer adds what it writes.** -/
theorem Has.usedAt {α : Type} (h : w.Has place content) (target : Place) (u : Usage α) :
    (w.useAt target u.operation).2.Has place (content ++ (w.writesAt place target u).flatten) := by
  unfold writesAt
  by_cases same : target = place
  · subst same
    rw [if_pos rfl]
    by_cases nothing : u.given = []
    · rw [nothing, onSuccess_nil]
      exact (h.useAt_plain target (u.plain_of_given nothing)).append_nil
    · cases u with
      | write bytes =>
        obtain ⟨well, added⟩ := h.write bytes
        rw [show (w.useAt target (Usage.write bytes).operation).1 = _ from well, onSuccess,
          Usage.given, List.flatten_singleton]
        exact added
      | _ => exact absurd rfl nothing
  · rw [if_neg same]
    exact (h.useAt_of_ne (Ne.symm same) _).append_nil

/-- A use of the buffer of a handle is one of the buffer at its place, or it does nothing. -/
theorem use_cases {α : Type} (place : Place) (w : World) (handle : Nat) (u : Usage α) :
    (∃ target, w.use handle u.operation = w.useAt target u.operation ∧
      w.writes place handle u = w.writesAt place target u) ∨
    (w.use handle u.operation).2 = w ∧ w.writes place handle u = [] := by
  unfold writes
  cases live : w.registry.place? handle with
  | some target => exact .inl ⟨target, use_of_place? live _, rfl⟩
  | none =>
    unfold use Registry.use
    rw [live]
    exact .inr ⟨rfl, rfl⟩

theorem Has.used {α : Type} (h : w.Has place content) (handle : Nat) (u : Usage α) :
    (w.use handle u.operation).2.Has place (content ++ (w.writes place handle u).flatten) := by
  rcases w.use_cases place handle u with ⟨target, same, written⟩ | ⟨same, nothing⟩
  · rw [same, written]
    exact h.usedAt target u
  · rw [same, nothing]
    exact h.append_nil

theorem writes_of_error {α : Type} {handle : Nat} {u : Usage α} {e : Error}
    (failed : (w.use handle u.operation).1 = .error e) : w.writes place handle u = [] := by
  unfold writes
  cases live : w.registry.place? handle with
  | some target =>
    rw [use_of_place? live] at failed
    dsimp only
    rw [writesAt, failed, onSuccess, ite_self]
  | none => rfl

end World

/-! ## The core function that writes -/

theorem Call.run_use {α : Type} (handle : Nat) (operation : Buffer → Except Error α × Buffer)
    (site : Site) :
    (Call.use handle operation).run site =
      ((site.world.use handle operation).1.mapError fun e => .recoverable (.exchange e),
        { site with world := (site.world.use handle operation).2 }) := by
  unfold Call.use Call.attempt
  simp only [run_bind, Call.run_world, Call.run_setWorld]
  cases (site.world.use handle operation).1 <;> rfl

namespace Core

/-- What the core function that writes to buffers writes at a place: the bytes that its arguments
name. -/
def passed (place : Place) (site : Site) : List Bytes :=
  match argument? site 0, argument? site 1, argument? site 2 with
  | some handle, some address, some length =>
    site.world.writes place handle (.write (site.memory.bytesAt address length))
  | _, _, _ => []

/-- **The core function that writes adds the bytes that it is given.** -/
theorem has_writeBuffer (h : site.world.Has place content) :
    (writeBuffer.run site).2.world.Has place
      (content ++ (onSuccess (writeBuffer.run site).1 (passed place site)).flatten) := by
  unfold writeBuffer Call.bytes passed
  -- an argument that is missing ends the call before anything is written
  obtain ⟨-, e, run⟩ | ⟨handle, given, run⟩ := (run_word_cases 0 site).symm
  · simp only [run_bind, run]
    exact h.append_nil
  obtain ⟨-, e, run'⟩ | ⟨address, given', run'⟩ := (run_word_cases 1 site).symm
  · simp only [run_bind, run, run']
    exact h.append_nil
  obtain ⟨-, e, run''⟩ | ⟨length, given'', run''⟩ := (run_word_cases 2 site).symm
  · simp only [run_bind, run, run', run'']
    exact h.append_nil
  simp only [run_bind, run, run', run'', Call.run_slice]
  by_cases inside : site.memory.Holds address length
  · simp only [if_pos inside, Call.run_use, given, given', given'']
    have used := h.used handle (.write (site.memory.bytesAt address length))
    cases come : (site.world.use handle (Buffer.write _)).1 with
    | ok n => exact used
    | error e =>
      rw [World.writes_of_error come] at used
      exact used
  · simp only [if_neg inside]
    exact h.append_nil

end Core

/-! ## The system call that writes -/

namespace Posix

/-- The standard output of a process that is bound is the output of its invocation. -/
theorem Process.file?_bind_output {registry : Exchange.Registry} {invocation : Invocation}
    (live : registry.place? invocation.output = some place) (p : Process)
    (arguments : List String) :
    (p.bind registry invocation arguments).file? 1 = some (.output place) := by
  unfold bind
  simp only [live, file?_withFile, if_true]
  rfl

theorem File.write_output (place : Place) (bytes : Bytes) (w : World) :
    File.write bytes w (.output place) =
      ((w.useAt place (Buffer.write bytes)).1.mapError .exchange,
        (w.useAt place (Buffer.write bytes)).2) := by
  simp only [write]
  obtain ⟨outcome, after⟩ := w.useAt place (Buffer.write bytes)
  cases outcome <;> rfl

/-- **Writing to an output adds the bytes** to the buffer that it holds on to. -/
theorem File.has_write_output (h : w.Has place content) (bytes : Bytes) :
    (File.write bytes w (.output place)).1 = .ok bytes.length ∧
      (File.write bytes w (.output place)).2.Has place (content ++ bytes) := by
  obtain ⟨well, added⟩ := h.write bytes
  rw [write_output, well]
  exact ⟨rfl, added⟩

/-- Writing to another file adds nothing. -/
theorem File.has_write_of_ne {file : File} (h : w.Has place content) (other : file ≠ .output place)
    (bytes : Bytes) : (file.write bytes w).2.Has place content := by
  cases file with
  | standardError => exact h
  | output target =>
    rw [write_output]
    exact h.useAt_of_ne (fun same => other (same ▸ rfl)) (Buffer.write bytes)
  | _ => exact h

namespace Syscall

/-- The bytes of the vector that a table has at an index, if memory holds both. -/
def vectorBytes (memory : Memory) (table index : Nat) : Option Bytes :=
  let entry := satAdd table (satMul index 8)
  match memory.readWord 4 entry, memory.readWord 4 (satAdd entry 4) with
  | .ok address, .ok length =>
    if memory.Holds address length then some (memory.bytesAt address length) else none
  | _, _ => none

/-- The bytes of `left` vectors from `index` on, up to the first that memory does not hold. -/
def gathered (memory : Memory) (table : Nat) : Nat → Nat → List Bytes
  | 0, _ => []
  | left + 1, index =>
    match vectorBytes memory table index with
    | some bytes => bytes :: gathered memory table left (index + 1)
    | none => []

/-- What of these vectors is written at a place, if they are written to a file. -/
def gatheredBy (place : Place) (file : Option File) (memory : Memory) (table left index : Nat) :
    List Bytes :=
  match file with
  | some (.output target) => if target = place then gathered memory table left index else []
  | _ => []

/-- What the system call that writes to files writes at a place: the vectors that it gets through,
if its descriptor stands for an output there. -/
def passed (place : Place) (site : Site) : List Bytes :=
  match argument? site 0, argument? site 1, argument? site 2, argument? site 3 with
  | some d, some table, some count, some _ =>
    gatheredBy place (site.process.file? d) site.memory table count 0
  | _, _, _, _ => []

theorem run_load (offset : Nat) (site : Site) : (Call.load offset).run site =
    ((site.memory.readWord 4 offset).mapError .outOfBounds, site) := by
  unfold Call.load
  simp only [run_bind, run_get]
  cases site.memory.readWord 4 offset <;> rfl

/-- The bytes of a vector are read, or the call fails for want of them; nothing changes either
way. -/
theorem run_vectorBytes (table index : Nat) (site : Site) :
    ∃ e, (vector table index >>= fun range => Call.slice range.1 range.2).run site =
      (match vectorBytes site.memory table index with
        | some bytes => .ok bytes
        | none => .error (.outOfBounds e), site) := by
  unfold vector vectorBytes
  simp only [run_bind, run_load]
  cases site.memory.readWord 4 (satAdd table (satMul index 8)) with
  | error e => exact ⟨e, rfl⟩
  | ok address =>
    cases site.memory.readWord 4 (satAdd (satAdd table (satMul index 8)) 4) with
    | error e => exact ⟨e, rfl⟩
    | ok length =>
      refine ⟨⟨address, length⟩, ?_⟩
      show (Call.slice address length).run site = _
      rw [Call.run_slice]
      dsimp only
      split <;> rfl

/-- A world that hears of bytes which are about to be written to a descriptor, if a trace of the
invocation tells it. -/
def heard (i : Invocation) (d : Nat) (w : World) (bytes : Bytes) : World :=
  if d = 1 ∧ i.trace = true then w.hear bytes else w

theorem registry_heard (i : Invocation) (d : Nat) (w : World) (bytes : Bytes) :
    (heard i d w bytes).registry = w.registry := by
  unfold heard
  split <;> rfl

/-- One vector written, and the others behind it. What is traced is noted down before. -/
theorem run_writeVectors_cons (d table index written : Nat) (site : Site) :
    ∃ e, ∀ left, (writeVectors d table (left + 1) index written).run site =
      match vectorBytes site.memory table index, site.process.file? d with
      | none, _ => (.error (.outOfBounds e), site)
      | some bytes, none =>
        (.ok (.error .badDescriptor), { site with
          world := heard site.invocation d site.world bytes })
      | some bytes, some file =>
        let wrote := file.write bytes (heard site.invocation d site.world bytes)
        let after := { site with world := wrote.2 }
        match wrote.1 with
        | .error e => (.ok (.error e.errno), after)
        | .ok n => (writeVectors d table left (index + 1) (written + n)).run after := by
  obtain ⟨e, fetched⟩ := run_vectorBytes table index site
  have invocation : Call.invocation.run site = (.ok site.invocation, site) := rfl
  have process (site : Site) : Call.process.run site = (.ok site.process, site) := rfl
  have wrote (file : File) (bytes : Bytes) (site : Site) : (writeFile file bytes).run site =
    (.ok (file.write bytes site.world).1,
      { site with world := (file.write bytes site.world).2 }) := rfl
  refine ⟨e, fun left => ?_⟩
  rw [writeVectors, ← bind_assoc, run_bind, fetched]
  cases vectorBytes site.memory table index with
  | none => rfl
  | some bytes =>
    dsimp only [heard]
    rw [run_bind, invocation]
    dsimp only
    by_cases traced : d = 1 ∧ site.invocation.trace = true
    · have hear : (Call.hear bytes).run site =
        (.ok ⟨⟩, { site with world := site.world.hear bytes }) := rfl
      simp only [if_pos traced, run_bind, hear, process]
      cases site.process.file? d with
      | none => rfl
      | some file =>
        simp only [run_bind, wrote]
        cases (file.write bytes (site.world.hear bytes)).1 <;> rfl
    · simp only [if_neg traced, run_bind, process]
      cases site.process.file? d with
      | none => rfl
      | some file =>
        simp only [run_bind, wrote]
        cases (file.write bytes site.world).1 <;> rfl

/-- The same, where it does not matter what is noted down. -/
theorem run_writeVectors_succ (d table left index written : Nat) (site : Site) :
    ∃ e heard, (heard = site.world ∨ ∃ event, heard = site.world.note event) ∧
      (writeVectors d table (left + 1) index written).run site =
        match vectorBytes site.memory table index, site.process.file? d with
        | none, _ => (.error (.outOfBounds e), site)
        | some _, none => (.ok (.error .badDescriptor), { site with world := heard })
        | some bytes, some file =>
          let after := { site with world := (file.write bytes heard).2 }
          match (file.write bytes heard).1 with
          | .error e => (.ok (.error e.errno), after)
          | .ok n => (writeVectors d table left (index + 1) (written + n)).run after := by
  obtain ⟨e, run⟩ := run_writeVectors_cons d table index written site
  cases fetched : vectorBytes site.memory table index with
  | none => exact ⟨e, site.world, .inl rfl, by rw [run, fetched]⟩
  | some bytes =>
    refine ⟨e, heard site.invocation d site.world bytes, ?_, ?_⟩
    · unfold heard
      split
      · exact .inr ⟨_, rfl⟩
      · exact .inl rfl
    · rw [run, fetched]
      cases site.process.file? d <;> rfl

/-- What is noted down leaves the buffers as they are. -/
theorem registry_noted {heard : World} (noted : heard = w ∨ ∃ event, heard = w.note event) :
    heard.registry = w.registry := by
  rcases noted with rfl | ⟨event, rfl⟩ <;> rfl

/-- What is noted down adds nothing. -/
theorem has_noted {heard : World} (h : w.Has place content)
    (noted : heard = w ∨ ∃ event, heard = w.note event) : heard.Has place content := by
  rcases noted with rfl | ⟨event, rfl⟩
  · exact h
  · exact h

/-- Writing vectors to a file that is no output at a place adds nothing there. -/
theorem has_writeVectors_of_ne {d : Nat} (h : site.world.Has place content)
    (other : site.process.file? d ≠ some (.output place)) (table left index written : Nat) :
    ((writeVectors d table left index written).run site).2.world.Has place content := by
  induction left generalizing site index written with
  | zero => exact h
  | succ left ih =>
    obtain ⟨e, heard, noted, run⟩ := run_writeVectors_succ d table left index written site
    have before := has_noted h noted
    rw [run]
    cases vectorBytes site.memory table index with
    | none => exact h
    | some bytes =>
      cases opened : site.process.file? d with
      | none => exact before
      | some file =>
        rw [opened] at other
        have after := File.has_write_of_ne before (fun same => other (congrArg some same)) bytes
        dsimp only
        cases (file.write bytes heard).1 with
        | error e => exact after
        | ok n => exact ih after (by rw [opened]; exact other) _ _

/-- **Writing vectors to an output adds the bytes of those that it gets through.** -/
theorem has_writeVectors_output {d : Nat} (h : site.world.Has place content)
    (opened : site.process.file? d = some (.output place)) (table left index written : Nat) :
    ((writeVectors d table left index written).run site).2.world.Has place
      (content ++ (gathered site.memory table left index).flatten) := by
  induction left generalizing site content index written with
  | zero => exact h.append_nil
  | succ left ih =>
    obtain ⟨e, heard, noted, run⟩ := run_writeVectors_succ d table left index written site
    have before := has_noted h noted
    rw [run, opened, gathered]
    cases vectorBytes site.memory table index with
    | none => exact h.append_nil
    | some bytes =>
      let site' : Site := { site with world := (File.write bytes heard (.output place)).2 }
      obtain ⟨well, after⟩ : _ ∧ site'.world.Has place (content ++ bytes) :=
        File.has_write_output before bytes
      dsimp only
      rw [well, List.flatten_cons, ← List.append_assoc]
      exact ih after opened _ _

theorem has_writeVectors (h : site.world.Has place content) (d table left index written : Nat) :
    ((writeVectors d table left index written).run site).2.world.Has place (content ++
      (gatheredBy place (site.process.file? d) site.memory table left index).flatten) := by
  by_cases output : site.process.file? d = some (.output place)
  · rw [output, gatheredBy, if_pos rfl]
    exact has_writeVectors_output h output table left index written
  · have none : gatheredBy place (site.process.file? d) site.memory table left index = [] := by
      unfold gatheredBy
      split
      · rename_i target opened
        exact if_neg fun same => output (by rw [opened, same])
      · rfl
    rw [none]
    exact (has_writeVectors_of_ne h output table left index written).append_nil

/-- **The system call that writes adds the vectors that it gets through.** -/
theorem has_write (h : site.world.Has place content) :
    (write.run site).2.world.Has place (content ++ (passed place site).flatten) := by
  rw [write_eq]
  unfold passed
  obtain ⟨missing, e, run₀⟩ | ⟨d, given₀, run₀⟩ := (run_word_cases 0 site).symm
  · simp only [run_bind, run₀, missing]
    exact h.append_nil
  obtain ⟨missing, e, run₁⟩ | ⟨table, given₁, run₁⟩ := (run_word_cases 1 site).symm
  · simp only [run_bind, run₀, run₁, given₀, missing]
    exact h.append_nil
  obtain ⟨missing, e, run₂⟩ | ⟨count, given₂, run₂⟩ := (run_word_cases 2 site).symm
  · simp only [run_bind, run₀, run₁, run₂, given₀, given₁, missing]
    exact h.append_nil
  obtain ⟨missing, e, run₃⟩ | ⟨result, given₃, run₃⟩ := (run_word_cases 3 site).symm
  · simp only [run_bind, run₀, run₁, run₂, run₃, given₀, given₁, given₂, missing]
    exact h.append_nil
  have written := has_writeVectors h d table count 0 0
  simp only [run_bind, run₀, run₁, run₂, run₃, given₀, given₁, given₂, given₃]
  revert written
  obtain ⟨outcome, after⟩ := (writeVectors d table count 0 0).run site
  intro written
  -- what is stored for the guest changes its memory only
  have stored (value : Nat) (errno : Errno) :
      ((Call.store 4 result value >>= fun _ => pure errno).run after).2.world = after.world := by
    rw [run_bind, Call.run_store]
    by_cases room : after.memory.Holds result 4
    · rw [if_pos room]
      rfl
    · rw [if_neg room]
  rcases outcome with e | errno | n
  · exact written
  · exact (stored 0 errno).symm ▸ written
  · exact (stored n .success).symm ▸ written

/-- The path of the output stands for the output of the invocation. -/
theorem fileOf_output {w : World} {invocation : Invocation}
    (live : w.registry.place? invocation.output = some place) :
    fileOf w invocation "api://output" = .ok (.output place) := by
  unfold fileOf
  rw [if_neg (by decide +kernel), if_neg (by decide), if_pos rfl, live]
  rfl

/-- The system call that writes adds to an output the vectors that it gets through. -/
theorem has_write_output {site : Site} {content : Bytes} {d table count result : UInt32}
    (h : site.world.Has place content)
    (arguments : site.arguments = [.i32 d, .i32 table, .i32 count, .i32 result])
    (opened : site.process.file? d.toNat = some (.output place)) :
    (write.run site).2.world.Has place
      (content ++ (gathered site.memory table.toNat count.toNat 0).flatten) := by
  have written : passed place site = gathered site.memory table.toNat count.toNat 0 := by
    simp only [passed, argument?, arguments, List.getElem?_cons_zero, List.getElem?_cons_succ,
      opened, gatheredBy, if_true]
  exact written ▸ has_write h

end Syscall

end Posix

/-! ## All that a host offers -/

/-- What the host call behind a function writes at a place. There are two that write, which their
names tell. -/
def HostFunction.writes (place : Place) (f : HostFunction) (site : Site) : List Bytes :=
  match f.backing with
  | .handler (.native call) =>
    if f.name = Core.writing then onSuccess (call.run site).1 (Core.passed place site)
    else if f.name = Posix.Syscall.writing then Posix.Syscall.passed place site
    else []
  | _ => []

/-- The host call behind a function, if there is one, adds what it writes to a memory buffer, and
nothing else. -/
def HostFunction.Adds (f : HostFunction) : Prop :=
  ∀ call, f.backing = .handler (.native call) → ∀ place content site, site.world.Has place content →
    (call.run site).2.world.Has place (content ++ (f.writes place site).flatten)

/-- A host call that keeps the content of all memory buffers, and is none of those that write, or
fails and is not the system call among them. -/
theorem HostFunction.adds_of_kept {f : HostFunction} {call : Call UInt32}
    (native : f.backing = .handler (.native call))
    (kept : ∀ place content site, site.world.Has place content →
      (call.run site).2.world.Has place content)
    (none : f.name = Core.writing → ∀ site, ∃ e, (call.run site).1 = .error e)
    (other : f.name ≠ Posix.Syscall.writing) : f.Adds := by
  intro same native' place content site h
  cases native.symm.trans native'
  have nothing : f.writes place site = [] := by
    unfold writes
    rw [native]
    dsimp only
    rw [if_neg other]
    split
    · rename_i name
      obtain ⟨e, failed⟩ := none name site
      rw [failed, onSuccess]
    · rfl
  rw [nothing]
  exact (kept place content site h).append_nil

/-- A stub takes a note and fails. -/
theorem HostFunction.adds_of_stub {f : HostFunction} {module name : String}
    (stub : f.backing = .handler (.stub module name)) (other : f.name ≠ Posix.Syscall.writing) :
    f.Adds :=
  adds_of_kept stub (fun _ _ _ h => h)
    (fun _ _ => ⟨_, rfl⟩) other

theorem Core.eq_of_writing : ∀ call ∈ calls, call.1 = writing → call.2.2 = writeBuffer := by
  simp [calls, writing]

theorem Core.ne_writing : ∀ call ∈ calls, call.1 ≠ Posix.Syscall.writing := by
  simp [calls, Posix.Syscall.writing]

theorem Posix.Syscall.eq_of_writing : ∀ call ∈ calls, call.1 = writing → call.2.2 = write := by
  simp [calls, writing]

theorem Posix.Syscall.ne_writing : ∀ call ∈ calls, call.1 ≠ Core.writing := by
  simp [calls, Core.writing]

theorem Core.adds_calls {f : HostFunction} {call : String × Nat × Call UInt32}
    (listed : call ∈ calls) (named : f.name = call.1)
    (native : f.backing = .handler (.native call.2.2)) : f.Adds := by
  by_cases writes : call.1 = writing
  · intro other same place content site h
    cases native.symm.trans same
    have added := has_writeBuffer h
    rw [← eq_of_writing call listed writes] at added
    unfold HostFunction.writes
    rw [native, named]
    dsimp only
    rw [if_pos writes]
    exact added
  · refine HostFunction.adds_of_kept native (fun place content site h => ?_)
      (fun same => absurd (named.symm.trans same) writes) (named ▸ ne_writing call listed)
    have tame := tame_calls_of_calm (World.calm_has place content) call listed
      (fun same => absurd same writes)
      (fun _ _ place name value h => h.useAt_plain place (Buffer.plain_setHeader name value))
      fun _ => World.roomy_has _ _
    exact (tame site h).2.1

theorem Posix.Syscall.adds_calls {f : HostFunction} {call : String × Signature × Call Errno}
    (listed : call ∈ calls) (named : f.name = call.1)
    (native : f.backing = .handler (.native (answered call.2.2))) : f.Adds := by
  by_cases writes : call.1 = writing
  · intro other same place content site h
    cases native.symm.trans same
    have added := has_write h
    rw [← eq_of_writing call listed writes] at added
    unfold HostFunction.writes
    rw [site_answered, native, named]
    dsimp only
    rw [if_neg (ne_writing call listed), if_pos writes]
    exact added
  · refine HostFunction.adds_of_kept native (fun place content site h => ?_)
      (fun same => absurd (named.symm.trans same) (ne_writing call listed))
      (fun same => writes (named.symm.trans same))
    have tame := tame_calls_of_calm (World.calm_has place content) call listed
      fun same => absurd same writes
    rw [site_answered]
    exact (tame site h).2.1

/-- **The functions of a host with nothing but the core functions add to memory buffers what they
write.** -/
theorem Platform.offers_adds (config : Config) : (standard config).Offers HostFunction.Adds := by
  refine ⟨fun module provider found => ?_, fun _ _ _ _ _ _ _ _ linked => (nomatch linked),
    fun names => ?_, fun names => ?_⟩
  · rw [provider_of_standard found]
    refine Core.offers_typed.mono fun module name type result handler offered => ?_
    rcases offered with ⟨call, listed, typed⟩ | typed
    · exact Core.adds_calls listed typed.name_eq typed.backing_eq
    · exact fun call native => nomatch typed.backing_eq.symm.trans native
  · refine (Posix.offers_typed names).mono fun module name type result handler offered => ?_
    rcases offered with ⟨call, listed, typed⟩ | typed | ⟨stub, -, missing⟩
    · exact Syscall.adds_calls listed typed.name_eq typed.backing_eq
    · refine HostFunction.adds_of_kept typed.backing_eq (fun place content site h => ?_)
        (fun same => absurd (typed.name_eq.symm.trans same) (by decide))
        (fun same => absurd (typed.name_eq.symm.trans same) (by decide))
      rw [Syscall.world_exit]
      exact h
    · refine HostFunction.adds_of_stub stub fun same => ?_
      rw [same] at missing
      cases missing
  · refine (Managed.offers_typed names).mono fun module name type result handler offered => ?_
    rcases offered with typed | typed | ⟨stub, isStub⟩
    · exact HostFunction.adds_of_kept typed.backing_eq (fun place content site h => h)
        (fun same => absurd (typed.name_eq.symm.trans same) (by decide))
        (fun same => absurd (typed.name_eq.symm.trans same) (by decide))
    · exact HostFunction.adds_of_kept typed.backing_eq
        (fun place content site h => (Managed.tame_write (World.calm_has place content) site h).2.1)
        (fun same => absurd (typed.name_eq.symm.trans same) (by decide))
        (fun same => absurd (typed.name_eq.symm.trans same) (by decide))
    · refine HostFunction.adds_of_stub stub fun same => ?_
      rw [same] at isStub
      exact absurd isStub (by decide)

end GuestHost
