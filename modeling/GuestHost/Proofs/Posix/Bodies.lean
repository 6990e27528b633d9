import GuestHost.Proofs.Posix.Streaming
/-!
# Who gets the body of a request

The body of a request can be observed in several ways: the host reads the buffer, a guest asks for
its size or has it copied, or reads one of any number of files that have been opened on it. All of
them come to a reading of the buffer, `Observation.observe_standing`, but for files that have taken
something before, which give that out first. So the first observation gets the body, and the others
find it gone, `body_given_once`. That is so for a body that breaks off too: whoever asks first is
told of it, and to all others the request looks like one without a body.
-/

namespace GuestHost

open Stateful Posix Exchange

/-! ## Observations -/

/-- What reading a body comes to. -/
def Exchange.Body.outcome (body : Body) : Except Error Bytes :=
  if body.breaks then .error (.io .body) else .ok body.content

/-- What reading a request comes to, which has a body or none. -/
def Exchange.Body.given : Option Body → Except Error Bytes
  | some body => body.outcome
  | none => .ok []

/-- A world that is watched, and files that are open on a request, each under a number. -/
structure Watch where
  world : World
  files : Nat → File

/-- A way to have a request read through its handle: by the host, by a guest that asks for its size,
or by one that has it copied to an address where there is some room. -/
inductive Inquiry where
  | host
  | size (site : Site)
  | copy (site : Site) (address room : UInt32)

/-- An observation of a request: it is read through its handle, or up to `length` bytes of a file
are. -/
inductive Observation where
  | handle (inquiry : Inquiry)
  | file (n length : Nat)

/-- What an observation is answered with. -/
inductive Finding where
  | host (outcome : Except Error Bytes)
  | guest (outcome : Except CallError UInt32) (memory : Memory)
  | file (outcome : Except FileError Bytes)

namespace Finding

/-- The answer that the body broke off. -/
def Broken : Finding → Prop
  | host outcome => outcome = .error (.io .body)
  | guest outcome _ => outcome = .error (.recoverable (.exchange (.io .body)))
  | file outcome => outcome = .error (.exchange (.io .body))

/-- An answer that tells of no failure. -/
def Succeeds : Finding → Prop
  | host outcome => outcome.isOk
  | guest outcome _ => outcome.isOk
  | file outcome => outcome.isOk

end Finding

namespace Inquiry

/-- The host call that a guest makes to learn of the request of a handle. -/
def ask (h : UInt32) (call : Call UInt32) (arguments : List Wasm.Value) (site : Site) (w : World) :
    Finding × World :=
  let (outcome, after) := call.run (Site.passing { site with world := w } (.i32 h :: arguments))
  (.guest outcome after.memory, after.world)

/-- The request of a handle read. -/
def observe (h : UInt32) (w : World) : Inquiry → Finding × World
  | host => (.host (w.use h.toNat Buffer.read).1, (w.use h.toNat Buffer.read).2)
  | size site => ask h Core.bufferSize [] site w
  | copy site address room => ask h Core.readBuffer [.i32 address, .i32 room] site w

/-- What is answered if reading comes to an outcome. -/
def answer (outcome : Except Error Bytes) : Inquiry → Finding
  | host => .host outcome
  | size site =>
    match outcome with
    | .ok content => .guest (.ok (Call.handle content.length)) site.memory
    | .error e => .guest (.error (.recoverable (.exchange e))) site.memory
  | copy site address room =>
    match outcome with
    | .ok content =>
      if content.length ≤ room.toNat then
        if site.memory.Holds address.toNat content.length then
          .guest (.ok (Call.handle content.length)) (site.memory.overwrite address.toNat content)
        else .guest (.error (.outOfBounds ⟨address.toNat, content.length⟩)) site.memory
      else .guest (.ok (Call.handle content.length)) site.memory
    | .error e => .guest (.error (.recoverable (.exchange e))) site.memory

end Inquiry

namespace Observation

/-- An observation of the request of a handle. -/
def observe (h : UInt32) (watch : Watch) : Observation → Finding × Watch
  | handle inquiry =>
    ((inquiry.observe h watch.world).1,
      { watch with world := (inquiry.observe h watch.world).2 })
  | file n length =>
    let (outcome, after, world) := (watch.files n).read length watch.world
    (.file outcome, ⟨world, Function.update watch.files n after⟩)

/-- What an observation is answered with if reading comes to an outcome. -/
def answer (outcome : Except Error Bytes) : Observation → Finding
  | handle inquiry => inquiry.answer outcome
  | file _ length => .file ((outcome.map (·.take length)).mapError .exchange)

/-- The number of bytes that an observation asks a file for. -/
def asks (n : Nat) : Observation → Nat
  | handle _ => 0
  | file m length => if n = m then length else 0

/-- What there is for an observation, where each file has some bytes left to give. -/
def due (left : Nat → Bytes) : Observation → Bytes
  | handle _ => []
  | file n _ => left n

/-- What the first observation of a body leaves for the readings of a file: what it has not given
itself, if it is a reading of that file and the body does not break off. -/
def leaves (body : Body) (n : Nat) : Observation → Bytes
  | handle _ => []
  | file m length => if n = m ∧ body.breaks = false then body.content.drop length else []

/-- A copy to an address behind the end of memory, where not even nothing can be put. -/
def Misses : Observation → Prop
  | handle (.copy site address _) => site.memory.size < address.toNat
  | _ => False

end Observation

/-- The answers to observations one after the other. -/
def Watch.answers (h : UInt32) : Watch → List Observation → List Finding
  | _, [] => []
  | watch, o :: rest => (o.observe h watch).1 :: answers h (o.observe h watch).2 rest

/-! ## Requests -/

/-- A live handle stands for a place where there is a request, with a body that nobody has read or
without one. -/
def World.Stands (h : UInt32) (place : Place) (body : Option Body) (w : World) : Prop :=
  w.registry.place? h.toNat = some place ∧
    ∃ headers, w.registry.at? place = some (.request ⟨headers, body⟩)

namespace World.Stands

variable {h : UInt32} {place : Place} {body : Option Body} {w : World}

/-- **Whoever reads a request takes its body.** -/
theorem useAt (stands : w.Stands h place body) :
    (w.useAt place Buffer.read).1 = Body.given body ∧
      (w.useAt place Buffer.read).2.Stands h place none := by
  obtain ⟨live, headers, held⟩ := stands
  have used := Registry.useAt_of_at? held Buffer.read
  refine ⟨?_, ?_, headers, ?_⟩
  · rw [show (w.useAt place Buffer.read).1 = (w.registry.useAt place Buffer.read).1 from rfl, used]
    cases body <;> rfl
  · rw [World.registry_useAt, Registry.place?_useAt, live]
  · rw [World.registry_useAt, used, Registry.at?_put_self held]
    cases body <;> rfl

theorem use (stands : w.Stands h place body) :
    (w.use h.toNat Buffer.read).1 = Body.given body ∧
      (w.use h.toNat Buffer.read).2.Stands h place none := by
  rw [World.use_of_place? stands.1]
  exact stands.useAt

theorem find? (stands : w.Stands h place body) :
    ∃ b, w.registry.find? h.toNat = some b ∧ b.read.1 = Body.given body := by
  obtain ⟨live, headers, held⟩ := stands
  refine ⟨.request ⟨headers, body⟩, ?_, ?_⟩
  · rw [Registry.find?, live]
    exact held
  · cases body <;> rfl

end World.Stands

/-! ## Files -/

/-- A file that is open on the request at a place has some bytes left to give: none, if it is to
take a body that is gone, or those behind the ones that it has given. -/
def Posix.File.Left (place : Place) (file : File) (left : Bytes) : Prop :=
  file = (Source.buffer place).opened ∧ left = [] ∨
    ∃ content passed, file = (Source.buffer place).holding content passed ∧
      left = content.drop passed

variable {h : UInt32} {place : Place} {body : Option Body} {w : World} {watch : Watch} {n : Nat}
  {left : Nat → Bytes}

/-- A file that is just open takes what reading the request comes to. -/
theorem World.Stands.read_opened (stands : w.Stands h place body) (length : Nat) :
    let read := (Source.buffer place).opened.read length w
    .file read.1 = (Observation.file n length).answer (Body.given body) ∧
      read.2.2.Stands h place none ∧
      read.2.1 = match Body.given body with
        | .ok content => (Source.buffer place).holding content length
        | .error _ => (Source.buffer place).opened := by
  obtain ⟨outcome, after⟩ := stands.useAt
  dsimp only
  rw [File.read_opened, Source.take, outcome]
  cases Body.given body <;> exact ⟨rfl, after, rfl⟩

/-- **A file gives what it has left**, also when the body of the request is gone. -/
theorem Posix.File.Left.read {file : File} {bytes : Bytes} (has : file.Left place bytes)
    (stands : w.Stands h place none) (length : Nat) :
    let read := file.read length w
    .file read.1 = (Observation.file n length).answer (.ok bytes) ∧
      read.2.2.Stands h place none ∧ read.2.1.Left place (bytes.drop length) := by
  rcases has with ⟨rfl, rfl⟩ | ⟨content, passed, rfl, rfl⟩
  · obtain ⟨answer, after, taken⟩ := stands.read_opened (n := n) length
    exact ⟨answer, after, .inr ⟨[], length, taken, by simp⟩⟩
  · dsimp only
    rw [File.read_holding]
    exact ⟨rfl, stands, .inr ⟨content, passed + length, rfl, List.drop_drop⟩⟩

/-! ## What observations find -/

/-- **All inquiries are readings of the request.** -/
theorem Inquiry.observe_standing (stands : w.Stands h place body) (inquiry : Inquiry) :
    (inquiry.observe h w).1 = inquiry.answer (Body.given body) ∧
      (inquiry.observe h w).2.Stands h place none := by
  obtain ⟨outcome, after⟩ := stands.use
  obtain ⟨b, live, reads⟩ := stands.find?
  cases inquiry with
  | host => exact ⟨congrArg Finding.host outcome, after⟩
  | size site =>
    have run : Core.bufferSize.run (Site.passing { site with world := w } [.i32 h]) = _ :=
      Core.run_bufferSize live
    dsimp only [observe, ask, answer]
    rw [run, reads]
    cases Body.given body <;> exact ⟨rfl, after⟩
  | copy site address room =>
    have run : Core.readBuffer.run
        (Site.passing { site with world := w } [.i32 h, .i32 address, .i32 room]) = _ :=
      Core.run_readBuffer live
    dsimp only [observe, ask, answer]
    rw [run, reads]
    cases Body.given body with
    | error e => exact ⟨rfl, after⟩
    | ok content =>
      by_cases fits : content.length ≤ room.toNat
      · by_cases inside : site.memory.Holds address.toNat content.length
        · simp only [if_pos fits, if_pos inside]
          exact ⟨trivial, after⟩
        · simp only [if_pos fits, if_neg inside]
          exact ⟨rfl, after⟩
      · simp only [if_neg fits]
        exact ⟨rfl, after⟩

/-- Nobody has observed the request of a handle, and files are open on it. -/
structure Watch.Awaits (h : UInt32) (place : Place) (body : Body) (watch : Watch) : Prop where
  stands : watch.world.Stands h place (some body)
  opened : ∀ n, watch.files n = .inputOf place

/-- The body of the request of a handle is gone, and files have some bytes left to give. -/
structure Watch.Drained (h : UInt32) (place : Place) (left : Nat → Bytes) (watch : Watch) :
    Prop where
  stands : watch.world.Stands h place none
  left : ∀ n, (watch.files n).Left place (left n)

/-- **The first observation gets the body**, and leaves of it what it has not given itself. -/
theorem Watch.Awaits.observe {body : Body} (awaits : watch.Awaits h place body) (o : Observation) :
    (o.observe h watch).1 = o.answer body.outcome ∧
      (o.observe h watch).2.Drained h place fun n => o.leaves body n := by
  have opened (n : Nat) : (watch.files n).Left place [] := .inl ⟨awaits.opened n, rfl⟩
  cases o with
  | handle inquiry =>
    obtain ⟨answer, after⟩ := inquiry.observe_standing awaits.stands
    exact ⟨answer, after, opened⟩
  | file n length =>
    obtain ⟨answer, after, taken⟩ := awaits.stands.read_opened (n := n) length
    have file : watch.files n = (Source.buffer place).opened := awaits.opened n
    unfold Observation.observe
    dsimp only
    rw [file]
    refine ⟨answer, after, fun m => ?_⟩
    show File.Left place (Function.update watch.files n _ m) _
    by_cases same : m = n
    · subst same
      rw [Function.update_self, taken, Observation.leaves, Body.given, Body.outcome]
      cases body.breaks with
      | true => exact .inl ⟨rfl, if_neg (by simp)⟩
      | false => exact .inr ⟨body.content, length, rfl, if_pos ⟨rfl, rfl⟩⟩
    · rw [Function.update_of_ne same, Observation.leaves, if_neg fun both => same both.1]
      exact opened m

/-- **The others find it gone**, and files give what they have left. -/
theorem Watch.Drained.observe (drained : watch.Drained h place left) (o : Observation) :
    (o.observe h watch).1 = o.answer (.ok (o.due left)) ∧
      (o.observe h watch).2.Drained h place fun n => (left n).drop (o.asks n) := by
  cases o with
  | handle inquiry =>
    obtain ⟨answer, after⟩ := inquiry.observe_standing drained.stands
    exact ⟨answer, after, drained.left⟩
  | file n length =>
    obtain ⟨answer, after, next⟩ := (drained.left n).read (n := n) drained.stands length
    refine ⟨answer, after, fun m => ?_⟩
    show File.Left place (Function.update watch.files n _ m) _
    by_cases same : m = n
    · subst same
      rw [Function.update_self, Observation.asks, if_pos rfl]
      exact next
    · rw [Function.update_of_ne same, Observation.asks, if_neg same]
      exact drained.left m

/-! ## Observations one after the other -/

/-- **What there is for a later observation** is what files have left behind all that they have been
asked for. -/
theorem Watch.Drained.getElem?_answers (drained : watch.Drained h place left)
    (done : List Observation) (o : Observation) (rest : List Observation) :
    (watch.answers h (done ++ o :: rest))[done.length]? =
      some (o.answer (.ok (o.due fun n => (left n).drop (done.map (Observation.asks n)).sum))) := by
  induction done generalizing watch left with
  | nil => exact congrArg some (drained.observe o).1
  | cons o' done ih =>
    have next := ih (drained.observe o').2
    simp only [List.drop_drop] at next
    exact next

/-- **Where no file has anything left**, a request looks like one without a body. -/
theorem Watch.Drained.answers_eq (drained : watch.Drained h place fun _ => [])
    (row : List Observation) :
    watch.answers h row = row.map (Observation.answer (.ok [])) := by
  induction row generalizing watch with
  | nil => rfl
  | cons o rest ih =>
    obtain ⟨answer, after⟩ := drained.observe o
    have nothing : o.due (fun _ => []) = [] := by cases o <;> rfl
    simp only [List.drop_nil] at after
    rw [Watch.answers, answer, nothing, ih after, List.map_cons]

/-- An observation is told that a body broke off if that is what reading comes to. -/
theorem Observation.broken_answer (o : Observation) (outcome : Except Error Bytes) :
    (o.answer outcome).Broken ↔ outcome = .error (.io .body) := by
  cases o with
  | file n length => cases outcome <;> simp [answer, Finding.Broken, Except.map, Except.mapError]
  | handle inquiry =>
    cases inquiry with
    | host => rfl
    | size site => cases outcome <;> simp [answer, Inquiry.answer, Finding.Broken]
    | copy site address room =>
      cases outcome with
      | error e => simp [answer, Inquiry.answer, Finding.Broken]
      | ok content =>
        refine iff_of_false ?_ nofun
        unfold answer Inquiry.answer
        dsimp only
        split
        · split <;> nofun
        · nofun

/-- An observation that finds no body succeeds, unless it is a copy to an address behind the end of
memory. -/
theorem Observation.succeeds_answer_nil (o : Observation) :
    (o.answer (.ok [])).Succeeds ↔ ¬ o.Misses := by
  cases o with
  | file n length => exact iff_of_true rfl id
  | handle inquiry =>
    cases inquiry with
    | host => exact iff_of_true rfl id
    | size site => exact iff_of_true rfl id
    | copy site address room =>
      have holds : site.memory.Holds address.toNat 0 ↔ ¬ site.memory.size < address.toNat := by
        simp only [Memory.Holds, Nat.add_zero, Nat.not_lt]
      unfold answer Inquiry.answer Misses
      dsimp only
      rw [List.length_nil, if_pos (Nat.zero_le _), ← holds]
      split <;> simp_all [Finding.Succeeds, Except.isOk, Except.toBool]

/-- Behind the first observation nobody is told that the body broke off. -/
theorem Watch.Drained.not_broken (drained : watch.Drained h place left) (row : List Observation) :
    ∀ a ∈ watch.answers h row, ¬ a.Broken := by
  induction row generalizing watch left with
  | nil => exact fun a mem => nomatch mem
  | cons o rest ih =>
    obtain ⟨answer, after⟩ := drained.observe o
    refine List.forall_mem_cons.mpr ⟨?_, ih after⟩
    rw [answer, o.broken_answer]
    exact nofun

/-- **The body of a request is given once.** A request that nobody has observed yet is observed in
any ways and any order. The first observation is answered by what reading the body comes to: its
bytes, or that it broke off. For all later ones the body is gone, but for the readings of the file
that has taken it: they give what is left of it, and the others are answered as those of a request
without a body. Hence observations that succeed after one has been told that the body broke off are
ruled out exactly if the body does not break off, or if there are no later ones but copies to
addresses behind the end of memory. -/
theorem body_given_once {body : Body} (awaits : watch.Awaits h place body) (first : Observation)
    (later : List Observation) :
    let row := watch.answers h (first :: later)
    row[0]? = some (first.answer body.outcome) ∧
    (∀ done o rest, later = done ++ o :: rest →
      row[done.length + 1]? = some (o.answer (.ok (o.due fun n =>
        (first.leaves body n).drop (done.map (Observation.asks n)).sum)))) ∧
    (row.Pairwise (fun a a' => a.Broken → ¬ a'.Succeeds) ↔
      (body.breaks = true → ∀ o ∈ later, o.Misses)) := by
  obtain ⟨answer, drained⟩ := awaits.observe first
  refine ⟨congrArg some answer, ?_, ?_⟩
  · rintro done o rest rfl
    exact drained.getElem?_answers done o rest
  · have broke : (first.answer body.outcome).Broken ↔ body.breaks = true := by
      rw [first.broken_answer, Body.outcome]
      cases body.breaks <;> simp
    have later_quiet : (Watch.answers h (first.observe h watch).2 later).Pairwise
        fun a a' => a.Broken → ¬ a'.Succeeds :=
      List.pairwise_of_forall_mem_list fun a mem _ _ broken =>
        absurd broken (drained.not_broken later a mem)
    have gone (breaks : body.breaks = true) :
        Watch.answers h (first.observe h watch).2 later =
          later.map (Observation.answer (.ok [])) := by
      have nothing : (fun n => first.leaves body n) = fun _ => [] := by
        funext n
        cases first with
        | handle inquiry => rfl
        | file m length => exact if_neg (by simp [breaks])
      rw [nothing] at drained
      exact drained.answers_eq later
    rw [Watch.answers, List.pairwise_cons, answer, and_iff_left later_quiet]
    simp only [broke]
    constructor
    · intro none breaks o mem
      refine not_not.mp fun reaches => none _ ?_ breaks (o.succeeds_answer_nil.mpr reaches)
      rw [gone breaks]
      exact List.mem_map_of_mem mem
    · intro all a mem breaks succeeds
      rw [gone breaks] at mem
      obtain ⟨o, listed, rfl⟩ := List.mem_map.mp mem
      exact o.succeeds_answer_nil.mp succeeds (all breaks o listed)

/-- A request whose body breaks off behind four bytes, and files that are open on it. -/
def Watch.broken : Watch where
  world := ((World.fresh .offline 0).register
    (.request ⟨.empty, some ⟨[0x62, 0x6f, 0x64, 0x79], true⟩⟩)).2
  files _ := .inputOf 0

/-- Of two readings of that request the first fails, and the second finds an empty body. -/
theorem body_given_once_broken :
    let row := Watch.broken.answers 1 [.handle .host, .handle .host]
    row[0]? = some (.host (.error (.io .body))) ∧ row[1]? = some (.host (.ok [])) ∧
      ¬ row.Pairwise fun a a' => a.Broken → ¬ a'.Succeeds := by
  have awaits : Watch.broken.Awaits 1 0 ⟨[0x62, 0x6f, 0x64, 0x79], true⟩ :=
    ⟨⟨rfl, .empty, rfl⟩, fun _ => rfl⟩
  obtain ⟨first, others, steadfast⟩ := body_given_once awaits (.handle .host) [.handle .host]
  exact ⟨first, others [] _ [] rfl, fun all => steadfast.mp all rfl _ (List.mem_singleton.mpr rfl)⟩

end GuestHost
