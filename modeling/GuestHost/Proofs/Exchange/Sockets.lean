import GuestHost.Exchange.Buffer
/-!
# The two ends of a socket

The host and the peer of a socket take steps in any order. A step is an event, which carries its
outcome, and a row of events is a trace: of it one can tell what the peer has sent, `sent`, which of
that the host has read, `heard`, what the host has got across, `posted`, and what the peer has
received. What is in flight is the difference: `Told` relates a socket to the trace behind it, one
event keeps it, `Told.occurs`, and so a whole run does, `Told.runs`. Steps that would block, such as
reading where nothing is there and the peer is, do not occur.
-/

namespace GuestHost

namespace Exchange

/-- The bytes of a message. A close frame has none. -/
def Message.payload : Message → Bytes
  | data _ content => content
  | close => []

/-- The kind of a message, if it carries data. -/
def Message.kind? : Message → Option MessageKind
  | data kind _ => some kind
  | close => none

namespace Socket

/-- A step of either end, with its outcome. -/
inductive Event where
  /-- The peer sends. -/
  | sent (message : Message)
  /-- The peer receives. -/
  | received (message : Message)
  /-- The peer leaves. -/
  | left
  /-- The host reads. -/
  | read (outcome : Except Error Bytes)
  /-- The host writes. -/
  | wrote (content : Bytes) (outcome : Except Error Nat)
  /-- The host closes. -/
  | closed (outcome : Except Error Unit)

open Buffer in
/-- An event takes one buffer into another. The peer takes steps as long as it is there, and those
that receive need something to be received; the host reads if there is something to read or the peer
is gone, and writes and closes as it likes. -/
inductive Occurs : Buffer → Event → Buffer → Prop where
  | sent (s : SocketBuffer) (message : Message) (here : s.peer = true) :
    Occurs (socket s) (.sent message) ((socket s).peerSend message)
  | received (s : SocketBuffer) (message : Message) (here : s.peer = true)
    (next : (socket s).peerReceive.1 = some message) :
    Occurs (socket s) (.received message) (socket s).peerReceive.2
  | left (s : SocketBuffer) (here : s.peer = true) : Occurs (socket s) .left (socket s).peerLeave
  | read (s : SocketBuffer) (ready : s.inbound ≠ [] ∨ s.peer = false) :
    Occurs (socket s) (.read (socket s).read.1) (socket s).read.2
  | wrote (s : SocketBuffer) (content : Bytes) :
    Occurs (socket s) (.wrote content ((socket s).write content).1) ((socket s).write content).2
  | closed (s : SocketBuffer) : Occurs (socket s) (.closed (socket s).close.1) (socket s).close.2

/-- The events of a run, one after the other. -/
inductive Run : Buffer → List Event → Buffer → Prop where
  | nil (b : Buffer) : Run b [] b
  | cons {b c d : Buffer} {event : Event} {rest : List Event} :
    Occurs b event c → Run c rest d → Run b (event :: rest) d

/-! ## What a trace tells -/

/-- What the peer has sent. -/
def sent (trace : List Event) : List Message :=
  trace.filterMap fun
    | .sent message => some message
    | _ => none

/-- What the peer has received. -/
def received (trace : List Event) : List Message :=
  trace.filterMap fun
    | .received message => some message
    | _ => none

/-- What the readings of the host gave. -/
def readings (trace : List Event) : List (Except Error Bytes) :=
  trace.filterMap fun
    | .read outcome => some outcome
    | _ => none

/-- The messages that the host has read: each reading takes one, as long as there are any. -/
def heard (trace : List Event) : List Message := (sent trace).take (readings trace).length

/-- The kind of the latest message with data, and that of text if there is none. -/
def latestKind (messages : List Message) : MessageKind :=
  (messages.reverse.findSome? Message.kind?).getD .text

/-- The message that an event gets across to the peer, by what came before: that of a write or a
close which succeeds. A write is of the kind that the host has read last. -/
def Event.posts (before : List Event) : Event → List Message
  | wrote content (.ok _) => [.data (latestKind (heard before)) content]
  | closed (.ok _) => [.close]
  | _ => []

/-- What events get across to the peer, by what came before them. -/
def postedAfter (before : List Event) : List Event → List Message
  | [] => []
  | event :: rest => event.posts before ++ postedAfter (before ++ [event]) rest

/-- What the host has got across to the peer. -/
def posted (trace : List Event) : List Message := postedAfter [] trace

variable {trace : List Event} {event : Event} {s : SocketBuffer} {b c : Buffer}

theorem sent_append (trace later : List Event) :
    sent (trace ++ later) = sent trace ++ sent later := List.filterMap_append

theorem received_append (trace later : List Event) :
    received (trace ++ later) = received trace ++ received later := List.filterMap_append

theorem readings_append (trace later : List Event) :
    readings (trace ++ later) = readings trace ++ readings later := List.filterMap_append

theorem postedAfter_append (before trace : List Event) (event : Event) :
    postedAfter before (trace ++ [event]) =
      postedAfter before trace ++ event.posts (before ++ trace) := by
  induction trace generalizing before with
  | nil => simp only [List.nil_append, postedAfter, List.append_nil]
  | cons first rest ih =>
    rw [List.cons_append, postedAfter, ih, postedAfter, List.append_assoc, List.append_assoc,
      List.singleton_append]

theorem posted_append (trace : List Event) (event : Event) :
    posted (trace ++ [event]) = posted trace ++ event.posts trace :=
  postedAfter_append [] trace event

theorem latestKind_append (messages : List Message) (message : Message) :
    latestKind (messages ++ [message]) = message.kind?.getD (latestKind messages) := by
  rw [latestKind, List.reverse_append, List.reverse_singleton, List.singleton_append,
    List.findSome?_cons]
  cases message.kind? <;> rfl

/-- The number of the readings that found nothing. -/
def misses (trace : List Event) : Nat := (readings trace).length - (sent trace).length

/-! ## Reading -/

/-- A socket of which the first message has been read, if there is one. -/
def readOn (s : SocketBuffer) : SocketBuffer :=
  { s with
    inbound := s.inbound.tail
    kind := (s.inbound.head?.bind Message.kind?).getD s.kind }

theorem read_socket (s : SocketBuffer) :
    (Buffer.socket s).read =
      (.ok (s.inbound.head?.elim [] Message.payload), .socket (readOn s)) := by
  obtain ⟨headers, inbound, outbound, peer, kind⟩ := s
  match inbound with
  | [] => rfl
  | .close :: _ => rfl
  | .data _ _ :: _ => rfl

theorem sent_read (trace : List Event) (outcome : Except Error Bytes) :
    sent (trace ++ [.read outcome]) = sent trace :=
  (sent_append _ _).trans (List.append_nil _)

theorem length_readings_read (trace : List Event) (outcome : Except Error Bytes) :
    (readings (trace ++ [.read outcome])).length = (readings trace).length + 1 := by
  rw [readings_append, List.length_append]
  rfl

theorem misses_read (trace : List Event) (outcome : Except Error Bytes) :
    misses (trace ++ [.read outcome]) = (readings trace).length + 1 - (sent trace).length := by
  rw [misses, sent_read, length_readings_read]

/-! ## The invariant -/

/-- **What a socket has to do with the events behind it.** What has been sent and not read is
inbound and what has been posted and not received is outbound; the readings gave what has been read,
and nothing where there was nothing, which is only after the peer has left. -/
structure Told (trace : List Event) (s : SocketBuffer) : Prop where
  inbound_eq : s.inbound = (sent trace).drop (readings trace).length
  posted_eq : posted trace = received trace ++ s.outbound
  peer_iff : s.peer = true ↔ .left ∉ trace
  kind_eq : s.kind = latestKind (heard trace)
  readings_eq : readings trace =
    (heard trace).map (fun message => .ok message.payload) ++
      List.replicate (misses trace) (.ok [])
  left_of_miss : misses trace ≠ 0 → .left ∈ trace

theorem told_nil (headers : List (String × String)) : Told [] (.connected headers) :=
  ⟨rfl, rfl, by simp [SocketBuffer.connected], rfl, rfl, fun miss => absurd rfl miss⟩

namespace Told

/-- What has been sent is what has been read and what is inbound. -/
theorem sent_eq (h : Told trace s) : sent trace = heard trace ++ s.inbound := by
  rw [h.inbound_eq, heard, List.take_append_drop]

theorem left_iff (h : Told trace s) : .left ∈ trace ↔ s.peer = false := by
  rw [← Bool.not_eq_true, h.peer_iff, Classical.not_not]

/-- While the peer is there, no reading has found nothing. -/
theorem misses_eq_zero (h : Told trace s) (here : s.peer = true) : misses trace = 0 :=
  Decidable.not_not.mp fun miss => h.peer_iff.mp here (h.left_of_miss miss)

/-- What an event posts goes behind what is outbound, from whose front the peer receives. -/
theorem posted_step (h : Told trace s) {outbound : List Message}
    (flow : s.outbound ++ event.posts trace = received [event] ++ outbound) :
    posted (trace ++ [event]) = received (trace ++ [event]) ++ outbound := by
  rw [posted_append, received_append, h.posted_eq, List.append_assoc, flow, List.append_assoc]

/-- An event by which nothing is sent and nothing read keeps what there is to be said of the
messages that come in. -/
theorem of_outbound (h : Told trace s) (t : SocketBuffer) (nothing : Socket.sent [event] = [])
    (unread : readings [event] = []) (inbound : t.inbound = s.inbound) (kind : t.kind = s.kind)
    (flow : s.outbound ++ event.posts trace = received [event] ++ t.outbound)
    (peer_iff : t.peer = true ↔ .left ∉ trace ++ [event]) : Told (trace ++ [event]) t := by
  have sent_same : Socket.sent (trace ++ [event]) = Socket.sent trace := by
    rw [sent_append, nothing, List.append_nil]
  have readings_same : readings (trace ++ [event]) = readings trace := by
    rw [readings_append, unread, List.append_nil]
  have heard_same : heard (trace ++ [event]) = heard trace := by
    rw [heard, sent_same, readings_same, heard]
  have misses_same : misses (trace ++ [event]) = misses trace := by
    rw [misses, sent_same, readings_same, misses]
  exact
    { inbound_eq := by rw [inbound, sent_same, readings_same, h.inbound_eq]
      posted_eq := h.posted_step flow
      peer_iff := peer_iff
      kind_eq := by rw [kind, heard_same, h.kind_eq]
      readings_eq := by rw [readings_same, heard_same, misses_same, ← h.readings_eq]
      left_of_miss := fun miss => List.mem_append_left _ (h.left_of_miss (misses_same ▸ miss)) }

/-- The peer sends a message, which comes in behind all others. -/
theorem sent (h : Told trace s) (message : Message) (here : s.peer = true) :
    Told (trace ++ [.sent message]) { s with inbound := s.inbound ++ [message] } := by
  have nowhere := h.misses_eq_zero here
  have inside : (readings trace).length ≤ (Socket.sent trace).length :=
    Nat.le_of_sub_eq_zero nowhere
  have sent_more : Socket.sent (trace ++ [.sent message]) = Socket.sent trace ++ [message] :=
    sent_append _ _
  have readings_same : readings (trace ++ [.sent message]) = readings trace :=
    (readings_append _ _).trans (List.append_nil _)
  have heard_same : heard (trace ++ [.sent message]) = heard trace := by
    rw [heard, sent_more, readings_same, List.take_append_of_le_length inside, heard]
  have misses_same : misses (trace ++ [.sent message]) = misses trace := by
    rw [nowhere, misses, sent_more, readings_same, List.length_append]
    omega
  exact
    { inbound_eq := by
        rw [sent_more, readings_same, List.drop_append_of_le_length inside, h.inbound_eq]
      posted_eq := h.posted_step (List.append_nil _)
      peer_iff := by simp [h.peer_iff]
      kind_eq := by rw [heard_same, h.kind_eq]
      readings_eq := by rw [readings_same, heard_same, misses_same, ← h.readings_eq]
      left_of_miss := fun miss => absurd (misses_same.trans nowhere) miss }

/-- There is nothing inbound if there were readings for all that has been sent. -/
theorem inbound_eq_nil_iff (h : Told trace s) :
    s.inbound = [] ↔ (Socket.sent trace).length ≤ (readings trace).length := by
  rw [h.inbound_eq, List.drop_eq_nil_iff]

/-- A reading takes the first message that is inbound. -/
theorem heard_read (h : Told trace s) (outcome : Except Error Bytes) :
    heard (trace ++ [.read outcome]) = heard trace ++ s.inbound.head?.toList := by
  rw [heard, sent_read, length_readings_read, List.take_add_one, h.inbound_eq, List.head?_drop,
    heard]

/-- The readings give what has been read after another one, too, which gives the first message, or
nothing if there is none. -/
theorem readings_read (h : Told trace s) {payload : Bytes}
    (given : payload = s.inbound.head?.elim [] Message.payload) :
    readings (trace ++ [.read (.ok payload)]) =
      (heard (trace ++ [.read (.ok payload)])).map (fun message => .ok message.payload) ++
        List.replicate (misses (trace ++ [.read (.ok payload)])) (.ok []) := by
  rw [readings_append, h.heard_read, misses_read, List.map_append]
  refine (congrArg (· ++ [.ok payload]) h.readings_eq).trans ?_
  have none_iff := h.inbound_eq_nil_iff
  cases inbound : s.inbound with
  | nil =>
    -- one more reading has found nothing
    rw [inbound] at given none_iff
    rw [given, misses, Nat.sub_add_comm (none_iff.mp rfl), List.replicate_succ']
    simp
  | cons message rest =>
    rw [inbound] at given none_iff
    have fewer : ¬ (Socket.sent trace).length ≤ (readings trace).length :=
      fun all => nomatch none_iff.mpr all
    rw [given, misses, Nat.sub_eq_zero_of_le (by omega), Nat.sub_eq_zero_of_le (by omega)]
    simp

/-- The host reads: the first message, or nothing if there is none and the peer has left. -/
theorem read (h : Told trace s) (ready : s.inbound ≠ [] ∨ s.peer = false) :
    Told (trace ++ [.read (.ok (s.inbound.head?.elim [] Message.payload))]) (readOn s) where
  inbound_eq := by
    rw [sent_read, length_readings_read, ← List.tail_drop, ← h.inbound_eq, readOn]
  posted_eq := h.posted_step (List.append_nil _)
  peer_iff := by simp [h.peer_iff, readOn]
  kind_eq := by
    rw [h.heard_read, readOn, h.kind_eq]
    cases s.inbound with
    | nil => rw [List.head?_nil, Option.toList_none, List.append_nil]; rfl
    | cons message rest => exact (latestKind_append _ message).symm
  readings_eq := h.readings_read rfl
  left_of_miss miss := by
    -- where a reading finds nothing, the peer has left
    refine List.mem_append_left _ (h.left_iff.mpr (ready.resolve_left fun more => ?_))
    rw [misses_read] at miss
    rw [Ne, h.inbound_eq_nil_iff] at more
    omega

/-- **One event keeps what a socket has to do with the events behind it.** -/
theorem occurs (h : Told trace s) (o : Occurs (.socket s) event c) :
    ∃ t, c = .socket t ∧ Told (trace ++ [event]) t := by
  cases o with
  | sent _ message here => exact ⟨_, rfl, h.sent message here⟩
  | received _ message here next =>
    obtain ⟨rest, outbound⟩ := List.head?_eq_some_iff.mp next
    have flow : s.outbound ++ [] = [message] ++ s.outbound.tail := by
      rw [outbound]
      exact List.append_nil _
    exact ⟨_, rfl, h.of_outbound _ rfl rfl rfl rfl flow (by simp [h.peer_iff])⟩
  | left _ here =>
    exact ⟨_, rfl, h.of_outbound _ rfl rfl rfl rfl (List.append_nil _) (by simp)⟩
  | read _ ready =>
    rw [read_socket]
    exact ⟨readOn s, rfl, h.read ready⟩
  | wrote _ content =>
    rw [Buffer.write]
    by_cases here : s.peer = true
    · rw [if_pos here]
      have flow : s.outbound ++ [.data (latestKind (heard trace)) content] =
          s.outbound ++ [.data s.kind content] := by
        rw [h.kind_eq]
      exact ⟨_, rfl, h.of_outbound _ rfl rfl rfl rfl flow (by simp [h.peer_iff])⟩
    · rw [if_neg here]
      exact ⟨s, rfl, h.of_outbound _ rfl rfl rfl rfl (List.append_nil _) (by simp [h.peer_iff])⟩
  | closed =>
    rw [Buffer.close]
    by_cases here : s.peer = true
    · rw [if_pos here]
      exact ⟨_, rfl, h.of_outbound _ rfl rfl rfl rfl rfl (by simp [h.peer_iff])⟩
    · rw [if_neg here]
      exact ⟨s, rfl, h.of_outbound _ rfl rfl rfl rfl (List.append_nil _) (by simp [h.peer_iff])⟩

/-- **A run keeps what a socket has to do with the events behind it.** -/
theorem runs {before : List Event} (h : Told before s) (run : Run (.socket s) trace b) :
    ∃ t, b = .socket t ∧ Told (before ++ trace) t := by
  generalize from_here : Buffer.socket s = start at run
  induction run generalizing before s with
  | nil => exact ⟨s, from_here.symm, by rwa [List.append_nil]⟩
  | @cons _ c _ event rest first _ ih =>
    subst from_here
    obtain ⟨t, rfl, next⟩ := h.occurs first
    obtain ⟨u, rfl, last⟩ := ih next rfl
    refine ⟨u, rfl, ?_⟩
    rwa [List.append_assoc] at last

end Told

/-- **The protocol of a socket.** After any run of the two ends of a new socket, the readings of
the host have given the messages of the peer in the order of their sending, each once and a close
frame as nothing, and beyond them nothing at all, for which the peer must have left. The peer has
received what the host has posted, in order, up to what is outbound and comes next. A write or a
close by the host now fails if and only if the peer has left, with one error, and changes nothing
then; if it does not fail, its message is posted in the kind of the latest data that the host has
read. -/
theorem protocol {headers : List (String × String)}
    (run : Run (.socket (.connected headers)) trace b) :
    ∃ s, b = .socket s ∧
      sent trace = heard trace ++ s.inbound ∧
      readings trace = (heard trace).map (fun message => .ok message.payload) ++
        List.replicate (misses trace) (.ok []) ∧
      (misses trace ≠ 0 → .left ∈ trace ∧ s.inbound = []) ∧
      posted trace = received trace ++ s.outbound ∧
      (.left ∈ trace → b.close = (.error .closed, b) ∧
        ∀ content, b.write content = (.error .closed, b)) ∧
      (.left ∉ trace → b.close.1 = .ok () ∧
        b.close.2 = .socket { s with outbound := s.outbound ++ [.close] } ∧
        ∀ content, (b.write content).1 = .ok content.length ∧
          (b.write content).2 = .socket { s with
            outbound := s.outbound ++ [.data (latestKind (heard trace)) content] }) := by
  obtain ⟨s, rfl, h⟩ := (told_nil headers).runs run
  rw [List.nil_append] at h
  refine ⟨s, rfl, h.sent_eq, h.readings_eq, fun miss => ⟨h.left_of_miss miss, ?_⟩, h.posted_eq,
    fun left => ?_, fun stays => ?_⟩
  · rw [misses] at miss
    exact h.inbound_eq_nil_iff.mpr (by omega)
  · have gone : ¬ s.peer = true := fun here => h.peer_iff.mp here left
    exact ⟨if_neg gone, fun content => if_neg gone⟩
  · have here : s.peer = true := h.peer_iff.mpr stays
    simp only [Buffer.write, Buffer.close, here, if_true, h.kind_eq, implies_true, and_self]

/-- A run in which the host writes before and after it reads, closes, and reads on when the peer has
left. -/
def parting : List Event :=
  [.sent (.data .binary [1, 2]), .wrote [7] (.ok 1), .read (.ok [1, 2]), .sent .close,
    .sent (.data .text [104]), .read (.ok []), .wrote [8] (.ok 1), .closed (.ok ()),
    .received (.data .text [7]), .left, .read (.ok [104]), .read (.ok []),
    .wrote [9] (.error .closed)]

/-- The host has read all, and of the two messages that are in flight one is of the kind that it had
read last when it wrote; the peer will not receive them. -/
theorem protocol_parting :
    ∃ b s, Run (.socket (.connected [])) parting b ∧ b = .socket s ∧ heard parting = sent parting ∧
      readings parting = [.ok [1, 2], .ok [], .ok [104], .ok []] ∧
      s.outbound = [.data .binary [8], .close] ∧
      b.close = (.error .closed, b) := by
  have run : Run (.socket (.connected [])) parting
      (.socket ⟨.ofPairs [], [], [.data .binary [8], .close], false, .text⟩) :=
    .cons (.sent _ _ rfl) <| .cons (.wrote _ _) <| .cons (.read _ (.inl nofun)) <|
    .cons (.sent _ _ rfl) <| .cons (.sent _ _ rfl) <| .cons (.read _ (.inl nofun)) <|
    .cons (.wrote _ _) <| .cons (.closed _) <| .cons (.received _ _ rfl rfl) <|
    .cons (.left _ rfl) <| .cons (.read _ (.inl nofun)) <| .cons (.read _ (.inr rfl)) <|
    .cons (.wrote _ _) <| .nil _
  obtain ⟨s, same, come, given, -, -, closed, -⟩ := protocol run
  cases same
  have left : .left ∈ parting := by simp [parting]
  exact ⟨_, _, run, rfl, (come.trans (List.append_nil _)).symm, given, rfl, (closed left).1⟩

end Socket

end Exchange

end GuestHost
