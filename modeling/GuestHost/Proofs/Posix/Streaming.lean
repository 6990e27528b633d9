import GuestHost.Proofs.HostCalls.Sizes
import GuestHost.Proofs.Posix.Descriptors
import Mathlib.Algebra.GroupWithZero.Nat
/-!
# Reading files bit by bit

An input and a remote file have their content from a `Source`, an exchange buffer or a page of the
web, which is asked at a reading as long as nothing has been taken: `Reading.perform_opened`. What
has been taken is given out from position to position, `Reading.perform_holding`, whatever has
become of the source and of the world by then. The position is that of all bytes asked for so far,
cut off at the end of the content, `fileAfter_holding`, so that readings one after the other give
the content without a gap, `files_stream`. Vectors are filled by such readings,
`Syscall.run_readVectors`.
-/

namespace GuestHost

open Stateful Posix Posix.Process

/-- **Any function may answer the requests for pages.** -/
theorem Web.exists_fetch (fetch : Url → Option Bytes) :
    ∃ web : Web, web.fetch = fetch := by
  refine ⟨⟨true, fun _ => none, fun url => (fetch url).map (⟨200, ·⟩)⟩, funext fun url => ?_⟩
  simp only [Web.fetch]
  cases fetch url <;> rfl

namespace Posix

/-! ## Sources -/

/-- What the content of a file is taken from. -/
inductive Source where
  | buffer (place : Exchange.Place)
  | page (url : Url)

namespace Source

/-- The content that a source is asked for, and the world afterwards. -/
def take (w : World) : Source → Except FileError Bytes × World
  | buffer place => ((w.useAt place Exchange.Buffer.read).1.mapError .exchange,
      (w.useAt place Exchange.Buffer.read).2)
  | page url => ((w.fetch url).1.elim (.error .fetch) .ok, (w.fetch url).2)

/-- The file of a source: the content, if it has been taken, and the position in it. -/
def file (content : Option Bytes) (position : Nat) : Source → File
  | buffer place => .input place content position
  | page url => .remote url content position

/-- The file of a source as it is opened. -/
def opened (source : Source) : File := source.file none 0

/-- The file of a source from which content has been taken. The position is behind some number of
bytes, or at the end of the content if that is shorter. -/
def holding (source : Source) (content : Bytes) (passed : Nat) : File :=
  source.file (some content) (min content.length passed)

end Source

/-- A file of which nothing has been taken: that of a source as it is opened, or one that cannot be
read. -/
def File.Untaken (file : File) : Prop :=
  (∃ source : Source, file = source.opened) ∨
    ∀ length w, file.read length w = (.error .notReadable, file, w)

variable {source : Source} {content : Bytes} {passed length : Nat} {w : World}

theorem File.length_next (content : Bytes) (position length : Nat) :
    (next content position length).length = min (content.length - position) length := by
  rw [next, List.length_take, List.length_drop, Nat.min_comm]

/-- A reading gives no more bytes than it is asked for. -/
theorem File.length_read_le (file : File) (length : Nat) (w : World) :
    ∀ bytes, (file.read length w).1 = .ok bytes → bytes.length ≤ length := by
  have short (content : Bytes) (position : Nat) :
      (next content position length).length ≤ length := by
    rw [length_next]
    exact Nat.min_le_right _ _
  intro bytes given
  unfold read at given
  split at given
  · exact Except.ok.inj given ▸ short _ _
  · split at given
    · cases given
    · exact Except.ok.inj given ▸ short _ _
  · exact Except.ok.inj given ▸ short _ _
  · split at given
    · cases given
    · exact Except.ok.inj given ▸ short _ _
  · cases given

/-- **A reading of a file that is just open asks its source.** -/
theorem File.read_opened (source : Source) (length : Nat) (w : World) :
    source.opened.read length w = match source.take w with
      | (.error e, w) => (.error e, source.opened, w)
      | (.ok content, w) => (.ok (content.take length), source.holding content length, w) := by
  have taken (content : Bytes) :
      0 + (next content 0 length).length = min content.length length := by
    rw [length_next, Nat.sub_zero, Nat.zero_add]
  cases source with
  | buffer place =>
    rw [show (Source.buffer place).opened = .input place none 0 from rfl, read, Source.take]
    rcases w.useAt place Exchange.Buffer.read with ⟨e | content, w'⟩
    · rfl
    · simp only [taken]
      rfl
  | page url =>
    rw [show (Source.page url).opened = .remote url none 0 from rfl, read, Source.take]
    rcases w.fetch url with ⟨_ | content, w'⟩
    · rfl
    · simp only [taken]
      rfl

/-- **What has been taken is given out** without the source. -/
theorem File.read_holding (source : Source) (content : Bytes) (passed length : Nat) (w : World) :
    (source.holding content passed).read length w =
      (.ok ((content.drop passed).take length), source.holding content (passed + length), w) := by
  have given : next content (min content.length passed) length =
      (content.drop passed).take length := by
    rw [next]
    rcases Nat.le_total passed content.length with within | beyond
    · rw [Nat.min_eq_right within]
    · rw [Nat.min_eq_left beyond, List.drop_length, List.drop_eq_nil_of_le beyond]
  have reached : min content.length passed + ((content.drop passed).take length).length =
      min content.length (passed + length) := by
    rw [List.length_take, List.length_drop]
    omega
  cases source <;> simp only [Source.holding, Source.file, read, given, reached]

/-! ## Readings -/

/-- A reading of a file: the world that it meets, and its destination, a range of a memory. -/
structure Reading where
  world : World
  memory : Memory
  address : Nat
  length : Nat
  inside : memory.Holds address length

/-- What a reading comes to: the number of bytes read, or why there are none, and the memory and
the world afterwards. -/
structure Reading.Result where
  outcome : Except FileError Nat
  memory : Memory
  world : World

namespace Reading

/-- A reading performed on a file, and the file afterwards. -/
def perform (r : Reading) (file : File) : Result × File :=
  match file.read r.length r.world with
  | (.ok bytes, file, w) => (⟨.ok bytes.length, r.memory.overwrite r.address bytes, w⟩, file)
  | (.error e, file, w) => (⟨.error e, r.memory, w⟩, file)

/-- The bytes that a reading has put to the front of its destination. -/
def delivered (r : Reading) (result : Result) : Bytes :=
  match result.outcome with
  | .ok n => result.memory.bytesAt r.address n
  | .error _ => []

/-- A reading copies the bytes that follow a position of some content to the front of its
destination, as many as there are and fit in; nothing else changes in memory. -/
structure Gives (r : Reading) (content : Bytes) (position : Nat) (result : Result) : Prop where
  outcome_eq : result.outcome = .ok (min (content.length - position) r.length)
  delivered_eq : r.delivered result = (content.drop position).take r.length
  size_eq : result.memory.size = r.memory.size
  rest_eq : ∀ address,
    address < r.address ∨ r.address + min (content.length - position) r.length ≤ address →
      result.memory.byteAt address = r.memory.byteAt address

variable {r : Reading}

theorem gives_overwrite (r : Reading) (content : Bytes) (position : Nat) (w : World) :
    r.Gives content position
      ⟨.ok ((content.drop position).take r.length).length,
        r.memory.overwrite r.address ((content.drop position).take r.length), w⟩ := by
  have count : ((content.drop position).take r.length).length =
      min (content.length - position) r.length := File.length_next content position r.length
  have inside : r.memory.Holds r.address ((content.drop position).take r.length).length := by
    have whole := r.inside
    simp only [Memory.Holds] at whole ⊢
    omega
  refine ⟨congrArg Except.ok count, Memory.bytesAt_overwrite inside, Memory.size_overwrite _ _ _,
    fun address outside => Memory.byteAt_overwrite inside ?_⟩
  rwa [count]

theorem size_perform (r : Reading) (file : File) :
    (r.perform file).1.memory.size = r.memory.size := by
  unfold perform
  split
  · exact Memory.size_overwrite _ _ _
  · rfl

/-- A reading whose source fails changes nothing but what the source does. -/
theorem perform_failing {e : FileError} (failing : (source.take r.world).1 = .error e) :
    r.perform source.opened = (⟨.error e, r.memory, (source.take r.world).2⟩, source.opened) := by
  unfold perform
  rw [File.read_opened]
  revert failing
  obtain ⟨outcome, w⟩ := source.take r.world
  rintro rfl
  rfl

/-- **The first reading whose source succeeds** takes the content. -/
theorem perform_opened (taken : (source.take r.world).1 = .ok content) :
    r.Gives content 0 (r.perform source.opened).1 ∧
      (r.perform source.opened).1.world = (source.take r.world).2 ∧
      (r.perform source.opened).2 = source.holding content r.length := by
  unfold perform
  rw [File.read_opened]
  revert taken
  obtain ⟨outcome, w⟩ := source.take r.world
  rintro rfl
  exact ⟨r.gives_overwrite content 0 w, rfl, rfl⟩

/-- **A reading of content that has been taken** goes on where the readings before it have come to,
and leaves the world alone. -/
theorem perform_holding (r : Reading) (source : Source) (content : Bytes) (passed : Nat) :
    r.Gives content passed (r.perform (source.holding content passed)).1 ∧
      (r.perform (source.holding content passed)).1.world = r.world ∧
      (r.perform (source.holding content passed)).2 =
        source.holding content (passed + r.length) := by
  unfold perform
  rw [File.read_holding]
  exact ⟨r.gives_overwrite content passed r.world, rfl, rfl⟩

end Reading

/-! ## Readings one after the other -/

/-- A file after some readings. -/
def fileAfter (file : File) (readings : List Reading) : File :=
  readings.foldl (fun file r => (r.perform file).2) file

/-- All bytes that readings of a file deliver one after the other. -/
def delivered (file : File) : List Reading → Bytes
  | [] => []
  | r :: rest => r.delivered (r.perform file).1 ++ delivered (r.perform file).2 rest

theorem fileAfter_append (file : File) (readings more : List Reading) :
    fileAfter file (readings ++ more) = fileAfter (fileAfter file readings) more :=
  List.foldl_append

theorem delivered_append (file : File) (readings more : List Reading) :
    delivered file (readings ++ more) =
      delivered file readings ++ delivered (fileAfter file readings) more := by
  induction readings generalizing file with
  | nil => rfl
  | cons r rest ih =>
    rw [List.cons_append, delivered, ih, delivered, List.append_assoc]
    rfl

/-- As long as the source fails, the file is as it was opened. -/
theorem fileAfter_failing {before : List Reading}
    (failing : ∀ r ∈ before, ∃ e, (source.take r.world).1 = .error e) :
    fileAfter source.opened before = source.opened ∧ delivered source.opened before = [] := by
  induction before with
  | nil => exact ⟨rfl, rfl⟩
  | cons r rest ih =>
    obtain ⟨⟨e, here⟩, failing⟩ := List.forall_mem_cons.mp failing
    obtain ⟨file, bytes⟩ := ih failing
    rw [fileAfter, List.foldl_cons, delivered, Reading.perform_failing here]
    exact ⟨file, bytes⟩

/-- **The position goes on by the bytes asked for**, up to the end of the content. -/
theorem fileAfter_holding (source : Source) (content : Bytes) (passed : Nat)
    (readings : List Reading) :
    fileAfter (source.holding content passed) readings =
      source.holding content (passed + (readings.map Reading.length).sum) := by
  induction readings generalizing passed with
  | nil => rfl
  | cons r rest ih =>
    obtain ⟨-, -, next⟩ := r.perform_holding source content passed
    rw [fileAfter, List.foldl_cons, next, ← fileAfter, ih, List.map_cons, List.sum_cons,
      Nat.add_assoc]

/-- **Readings one after the other deliver the content from the position on**, without a gap. -/
theorem delivered_holding (source : Source) (content : Bytes) (passed : Nat)
    (readings : List Reading) :
    delivered (source.holding content passed) readings =
      (content.drop passed).take (readings.map Reading.length).sum := by
  induction readings generalizing passed with
  | nil => simp [delivered]
  | cons r rest ih =>
    obtain ⟨gives, -, next⟩ := r.perform_holding source content passed
    rw [delivered, next, gives.delivered_eq, ih, List.map_cons, List.sum_cons, List.take_add,
      List.drop_drop]

/-! ## Opening -/

theorem Syscall.orUnknown_eq_ok {found? : Option File} {file : File}
    (h : orUnknown found? = .ok file) : found? = some file := by
  cases found? with
  | none => cases h
  | some found => exact congrArg some (Except.ok.inj h)

theorem Syscall.untaken_of_fileOf {w : World} {invocation : Invocation} {path : String}
    {file : File} (found : fileOf w invocation path = .ok file) : file.Untaken := by
  unfold fileOf at found
  split at found
  · split at found
    · split at found
      · exact .inl ⟨.page _, (Except.ok.inj found).symm⟩
      · cases found
    · cases found
  · split at found
    · obtain ⟨place, -, rfl⟩ := Option.map_eq_some_iff.mp (orUnknown_eq_ok found)
      exact .inl ⟨.buffer place, rfl⟩
    · split at found
      · obtain ⟨place, -, rfl⟩ := Option.map_eq_some_iff.mp (orUnknown_eq_ok found)
        exact .inr fun _ _ => rfl
      · cases found

/-- **Opening a path takes nothing**: it leaves the world alone, and of what it opens nothing has
been taken. -/
theorem Syscall.openPath_untaken (site : Site) :
    (openPath.run site).2.world = site.world ∧
      ∀ d file, (openPath.run site).2.process.file? d = some file →
        site.process.file? d = some file ∨ file.Untaken := by
  have opens : ∀ path file, fileOf site.world site.invocation path = .ok file →
      ∀ d file', (site.process.openFile file).2.file? d = some file' →
        site.process.file? d = some file' ∨ file'.Untaken := by
    intro path file stands d file' found
    rw [show (site.process.openFile file).2.file? d = _ from file?_withFile _ _ d file] at found
    split at found
    · exact .inr (Option.some.inj found ▸ untaken_of_fileOf stands)
    · exact .inl found
  rcases openPath_cases site with ⟨-, memory, left⟩ | ⟨path, file, result, stands, -, -, left⟩ |
    ⟨path, file, stands, -, left⟩
  · rw [left]
    exact ⟨rfl, fun d file found => .inl found⟩
  · rw [left]
    exact ⟨rfl, opens path file stands⟩
  · rw [left]
    exact ⟨rfl, opens path file stands⟩

theorem Process.untaken_withFile {p q : Process}
    (h : ∀ d file, q.file? d = some file → p.file? d = some file ∨ file.Untaken) (d : Nat)
    {file : File} (untaken : file.Untaken) :
    ∀ e file', (q.withFile d file).file? e = some file' →
      p.file? e = some file' ∨ file'.Untaken := by
  intro e file' found
  rw [file?_withFile] at found
  split at found
  · exact .inr (Option.some.inj found ▸ untaken)
  · exact h e file' found

/-- **Binding a process takes nothing** of the files that it puts on the standard descriptors. -/
theorem Process.untaken_of_bind (p : Process) (registry : Exchange.Registry)
    (invocation : Invocation) (arguments : List String) :
    ∀ d file, (p.bind registry invocation arguments).file? d = some file →
      p.file? d = some file ∨ file.Untaken := by
  have input (place : Exchange.Place) : (File.inputOf place).Untaken := .inl ⟨.buffer place, rfl⟩
  have error : File.standardError.Untaken := .inr fun _ _ => rfl
  let I (q : Process) : Prop :=
    ∀ d file, q.file? d = some file → p.file? d = some file ∨ file.Untaken
  have bound : I { p with stage := .bound, arguments := arguments } := fun d file found => .inl found
  exact keeps_bind bound (fun q place h => untaken_withFile h 0 (input place))
    (fun q place h => untaken_withFile h 1 (.inr fun _ _ => rfl))
    (fun q h => untaken_withFile h 2 error) registry invocation

/-! ## Filling vectors -/

/-- **A vector is filled by a reading.** -/
theorem Syscall.run_readVectors {d table left index done address length : Nat} {file : File}
    {site : Site} (at_index : (vector table index).run site = (.ok (address, length), site))
    (wanted : length ≠ 0) (opened : site.process.file? d = some file)
    (inside : site.memory.Holds address length) :
    (readVectors d table (left + 1) index done).run site =
      let read := Reading.perform ⟨site.world, site.memory, address, length, inside⟩ file
      let after := { site with
        memory := read.1.memory
        process := site.process.withFile d read.2
        world := read.1.world }
      match read.1.outcome with
      | .error e => (.ok (.error e.errno), after)
      | .ok n =>
        if n < length then (.ok (.ok (done + n)), after)
        else (readVectors d table left (index + 1) (done + n)).run after := by
  have process : Call.process.run site = (.ok site.process, site) := rfl
  have checked : (Call.range address length).run site = (.ok (), site) := by
    unfold Call.range Memory.check
    simp only [run_bind, run_get, if_pos inside]
    rfl
  rw [readVectors]
  simp only [run_bind, at_index, if_neg wanted, process, opened, checked]
  have asked : (readFile d file length).run site =
      (.ok (file.read length site.world).1, { site with
        process := site.process.withFile d (file.read length site.world).2.1
        world := (file.read length site.world).2.2 }) := rfl
  have short := file.length_read_le length site.world
  rw [asked]
  unfold Reading.perform
  dsimp only
  revert short
  obtain ⟨outcome, file', w⟩ := file.read length site.world
  cases outcome with
  | error e => exact fun _ => rfl
  | ok bytes =>
    intro short
    have within : site.memory.Holds address bytes.length := by
      have := short bytes rfl
      simp only [Memory.Holds] at inside ⊢
      omega
    dsimp only
    rw [run_bind, Call.run_write, if_pos within]
    dsimp only
    split <;> rfl

/-- **Files are read bit by bit**, each reading in a world of its own, and so with a web that may be
another: whatever function answers its requests, there is such a web, `Web.exists_fetch`. Opening a
path and binding a process take nothing of what they open. As long as the source of a file fails,
the file stays as it was opened, and a reading reports the error and leaves its destination alone.
The first reading whose source succeeds takes the content. From then on, whatever the world is at
each reading and whatever the readings ask for:
- each reading copies the bytes behind those asked for so far, as many as are left and fit in, to
  the front of its destination, tells their number, and changes nothing else;
- only the first of them asks the source, the others leave the world alone;
- the position never passes the end of the content, and all that is delivered is the content up to
  the number of bytes asked for. -/
theorem files_stream :
    (∀ site, (Syscall.openPath.run site).2.world = site.world ∧
      ∀ d file, (Syscall.openPath.run site).2.process.file? d = some file →
        site.process.file? d = some file ∨ file.Untaken) ∧
    (∀ (p : Process) registry invocation arguments d file,
      (p.bind registry invocation arguments).file? d = some file →
        p.file? d = some file ∨ file.Untaken) ∧
    ∀ (source : Source) (before : List Reading),
      (∀ r ∈ before, ∃ e, (source.take r.world).1 = .error e) →
      fileAfter source.opened before = source.opened ∧
      delivered source.opened before = [] ∧
      (∀ (r : Reading) e, (source.take r.world).1 = .error e →
        r.perform source.opened =
          (⟨.error e, r.memory, (source.take r.world).2⟩, source.opened)) ∧
      ∀ (first : Reading) content later, (source.take first.world).1 = .ok content →
        (∀ done r rest, first :: later = done ++ r :: rest →
          let passed := (done.map Reading.length).sum
          let file := fileAfter source.opened (before ++ done)
          r.Gives content passed (r.perform file).1 ∧
          (r.perform file).1.world =
            (if done.isEmpty then (source.take r.world).2 else r.world) ∧
          (r.perform file).2 =
            source.file (some content) (min content.length (passed + r.length))) ∧
        delivered source.opened (before ++ first :: later) =
          content.take ((first :: later).map Reading.length).sum := by
  refine ⟨Syscall.openPath_untaken, Process.untaken_of_bind, fun source before failing => ?_⟩
  obtain ⟨still, nothing⟩ := fileAfter_failing failing
  refine ⟨still, nothing, fun r e => Reading.perform_failing, fun first content later taken => ?_⟩
  obtain ⟨gives, world, holds⟩ := first.perform_opened taken
  refine ⟨fun done r rest split => ?_, ?_⟩
  · dsimp only
    rw [fileAfter_append, still]
    cases done with
    | nil =>
      cases split
      rw [List.map_nil, List.sum_nil, Nat.zero_add]
      exact ⟨gives, world, holds⟩
    | cons first' done =>
      cases split
      rw [fileAfter, List.foldl_cons, holds, ← fileAfter, fileAfter_holding, List.map_cons,
        List.sum_cons]
      exact r.perform_holding source content _
  · rw [delivered_append, nothing, List.nil_append, still, delivered, holds, gives.delivered_eq,
      delivered_holding, List.drop_zero, List.map_cons, List.sum_cons, List.take_add]

/-- A page with three bytes on it. -/
def latePage : Source := .page ⟨"https", some ("host", none), "/", none⟩

/-- A reading to the front of eight bytes, on a host with a network or without one. -/
def lateReading (connected : Bool) (length : Nat) (inside : (Memory.zeros 8).Holds 0 length) :
    Reading :=
  let page := if connected then some ⟨200, [104, 105, 33]⟩ else none
  ⟨.fresh { Web.offline with page? := fun _ => page } 0, .zeros 8, 0, length, inside⟩

/-- The first reading fails without the network, the second takes the page, and the third goes on
where that has come to, although the network is gone again. -/
theorem files_stream_late :
    delivered latePage.opened
        [lateReading false 2 (by decide), lateReading true 2 (by decide),
          lateReading false 8 (by decide)] = [104, 105, 33] ∧
      ((lateReading false 8 (by decide)).perform (fileAfter latePage.opened
        [lateReading false 2 (by decide), lateReading true 2 (by decide)])).1.outcome =
          .ok 1 := by
  obtain ⟨-, -, stream⟩ := files_stream
  obtain ⟨-, -, -, taken⟩ := stream latePage [lateReading false 2 (by decide)] fun r mem => by
    rw [List.mem_singleton.mp mem]
    exact ⟨.fetch, rfl⟩
  obtain ⟨each, all⟩ := taken (lateReading true 2 (by decide)) [104, 105, 33]
    [lateReading false 8 (by decide)] rfl
  obtain ⟨gives, -, -⟩ := each [lateReading true 2 (by decide)] _ [] rfl
  exact ⟨all, gives.outcome_eq⟩

end Posix

end GuestHost
