import GuestHost.Host
import GuestHost.Posix.File
/-!
# Sessions

A session is a host in the hands of an owner who opens files of its own, holds sandboxes back
before they run, and plays the peer of the host's sockets. A socket's end at the host is there as
long as anything can reach it: its handle, a file, or the process of a sandbox held back.
-/

namespace GuestHost

/-- A host with the files that its owner has opened and the sandboxes held back. -/
structure Session where
  host : Host
  files : Array Posix.File
  /-- The sandboxes held back, the one held back last first. -/
  held : List Sandbox

namespace Session

/-- The session of a new host. -/
def new (host : Host) : Session := ⟨host, #[], []⟩

/-- The session with its world changed. -/
def withWorld (s : Session) (world : World) : Session :=
  { s with host := { s.host with world := world } }

/-- The session with its registry changed. -/
def withRegistry (s : Session) (registry : Exchange.Registry) : Session :=
  s.withWorld { s.host.world with registry := registry }

/-- A sandbox held back. -/
def hold (s : Session) (sandbox : Sandbox) : Session := { s with held := sandbox :: s.held }

/-- The sandbox held back last let go. -/
def letGo (s : Session) : Session := { s with held := s.held.tail }

/-- Whether anything can reach the buffer at a place. -/
def holds (s : Session) (place : Exchange.Place) : Bool :=
  let sandboxed := s.held.flatMap fun sandbox => sandbox.process.files.entries.map Prod.snd
  s.host.world.registry.isLive (place + 1) ||
    (s.files.toList ++ sandboxed).any fun file => file.place? == some place

/-- A file opened; its number is the number of files before it. -/
def openFile (s : Session) (file : Posix.File) : Nat × Session :=
  (s.files.size, { s with files := s.files.push file })

/-- An operation on the file of a number, if there is one. -/
def withFile? {α : Type} (s : Session) (number : Nat)
    (operation : Posix.File → World → α × Posix.File × World) : Option (α × Session) := do
  let (outcome, file, world) := operation (← s.files[number]?) s.host.world
  return (outcome, { s with files := s.files.setIfInBounds number file }.withWorld world)

/-- Up to `length` bytes read from a file. -/
def read? (s : Session) (number length : Nat) :
    Option (Except Posix.FileError Bytes × Session) :=
  s.withFile? number fun file world => file.read length world

/-- Bytes written to a file, and their number. -/
def write? (s : Session) (number : Nat) (content : Bytes) :
    Option (Except Posix.FileError Nat × Session) :=
  s.withFile? number fun file world =>
    let (outcome, world) := file.write content world
    (outcome, file, world)

/-- A file closed. -/
def close? (s : Session) (number : Nat) : Option (Except Posix.FileError Unit × Session) :=
  s.withFile? number fun file world =>
    let (outcome, world) := file.close world
    (outcome, file, world)

/-- The place of the socket that was given a handle, while its peer is there. -/
def socket? (s : Session) (handle : Nat) : Option Exchange.Place := do
  let place ← s.host.world.registry.everPlace? handle
  match s.host.world.registry.at? place with
  | some (.socket socket) => if socket.peer then some place else none
  | _ => none

/-- A message that the peer of a socket sends. -/
def peerSend? (s : Session) (handle : Nat) (message : Exchange.Message) :
    Option (Except Exchange.Error Unit × Session) := do
  let place ← s.socket? handle
  if s.holds place then
    let registry := s.host.world.registry.change place (Exchange.Buffer.peerSend message)
    return (.ok (), s.withRegistry registry)
  else return (.error .closed, s)

/-- The next message that the peer of a socket receives, if there is one. -/
def peerReceive? (s : Session) (handle : Nat) : Option (Option Exchange.Message × Session) := do
  let place ← s.socket? handle
  let (message, buffer) := (← s.host.world.registry.at? place).peerReceive
  return (message, s.withRegistry (s.host.world.registry.put place buffer))

/-- The peer of a socket leaves. -/
def peerLeave? (s : Session) (handle : Nat) : Option Session := do
  let place ← s.socket? handle
  let registry := s.host.world.registry.change place Exchange.Buffer.peerLeave
  return s.withRegistry registry

end Session

end GuestHost
