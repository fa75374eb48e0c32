import Soros.Lib.Collections
import Soros.Lib.Exec
import Soros.Protocol

set_option autoImplicit false

/-! # The access manager

The lock manager of the registry, `access_manager.rs`, method by method. The two ends of the
`access_granted` channel are one `Channel` here. A `HashMap` is a function to `Option`, a
`HashSet` a `Finset`; which reader `readers.iter().next()` finds is the argument `iter` of the
methods that look. -/

namespace Soros

/-- Data sent to the channel when an access is granted to a process: the process, the key,
the type of request and the id of the holder. -/
abbrev AccessGranted := ProcId × KeyId × RequestType × ProcId

inductive AccessManagerError where
  | sendError (message : AccessGranted)
  | requestAccess (procId : ProcId) (keyId : KeyId)
  | releaseAccess (procId : ProcId) (keyId : KeyId)
  | keyAccessed
  | keyExists (keyId : KeyId)
  | keyNotFound (keyId : KeyId)
  deriving DecidableEq, Repr

/-- The texts of `#[error(..)]`. -/
def AccessManagerError.text : AccessManagerError → String
  | .sendError _ => "send error: sending on a closed channel"
  | .requestAccess p k => s!"could not grant access request for proc: {p}, with key: {k}"
  | .releaseAccess p k => s!"could not release access for proc: {p}, with key: {k}"
  | .keyAccessed => "key currently accessed"
  | .keyExists k => s!"key already exist: {k}"
  | .keyNotFound k => s!"key not found: {k}"

/-- Current state of a specific key. `creator` indicates the holder of the resource in case
of no readers / writer. -/
structure KeyState where
  pendingRequest : List (ProcId × RequestType)
  readers : Finset ProcId
  writer : Option ProcId
  creator : ProcId
  deriving DecidableEq

namespace KeyState

def new (creator : ProcId) : KeyState where
  pendingRequest := []
  readers := ∅
  writer := none
  creator := creator

def registerReader (self : KeyState) (procId : ProcId) : KeyState :=
  { self with readers := insert procId self.readers }

def registerWriter (self : KeyState) (procId : ProcId) : KeyState :=
  { self with writer := some procId }

/-- Find a process that knows the key's data. The writer has the priority, because he can
modify the data. -/
def holder (iter : SetIter ProcId) (self : KeyState) : ProcId :=
  match self.writer with
  | some writer => writer
  | none => if self.readers ≠ ∅ then iter.first self.readers else self.creator

end KeyState

structure AccessManager where
  accessGranted : Channel AccessGranted
  keyStates : KeyId → Option KeyState

namespace AccessManager

def new : AccessManager where
  accessGranted := Channel.new
  keyStates := fun _ => none

/-- Write back the state of a key. -/
def setKeyState (self : AccessManager) (keyId : KeyId) (keyState : KeyState) : AccessManager :=
  { self with keyStates := Function.update self.keyStates keyId (some keyState) }

/-- Methods of the manager: they change it in place and may fail. -/
abbrev Method := Exec AccessManager AccessManagerError

/-- `get_key_state` and `get_key_state_mut`. -/
def getKeyState (keyId : KeyId) : Method KeyState := do
  match (← Exec.get).keyStates keyId with
  | some keyState => pure keyState
  | none => Exec.throw (.keyNotFound keyId)

def putKeyState (keyId : KeyId) (keyState : KeyState) : Method Unit :=
  Exec.modify fun self => self.setKeyState keyId keyState

/-- `self.access_granted_tx.send(message)?`. -/
def send (message : AccessGranted) : Method Unit := do
  match (← Exec.get).accessGranted.send message with
  | some accessGranted => Exec.modify fun self => { self with accessGranted }
  | none => Exec.throw (.sendError message)

/-- Create a new key if it does not already exist. -/
def create (procId : ProcId) (keyId : KeyId) : Method Unit := do
  if ((← Exec.get).keyStates keyId).isSome then
    Exec.throw (.keyExists keyId)
  else
    putKeyState keyId (KeyState.new procId)

def delete (keyId : KeyId) : Method Unit := do
  let keyState ← getKeyState keyId
  if keyState.readers ≠ ∅ ∨ keyState.writer.isSome then
    Exec.throw .keyAccessed
  else
    Exec.modify fun self => { self with keyStates := Function.update self.keyStates keyId none }

/-- The loop of `handleRequesting` over the reads at the front of the queue: the argument is
the queue of the key when the iteration starts. -/
def grantReads (keyId : KeyId) (holder : ProcId) : List (ProcId × RequestType) → Method Unit
  | (procId, .read) :: rest => do
      send (procId, keyId, .read, holder)
      let keyState ← getKeyState keyId
      putKeyState keyId { keyState.registerReader procId with pendingRequest := rest }
      grantReads keyId holder rest
  | _ => pure ()

/-- Handle pending request queue for a given key. -/
def handleRequesting (iter : SetIter ProcId) (keyId : KeyId) : Method Unit := do
  match (← Exec.get).keyStates keyId with
  | none => Exec.panic "called `Option::unwrap()` on a `None` value"
  | some keyState =>
      let holder := keyState.holder iter
      match keyState.pendingRequest with
      | [] => pure ()
      | (procId, .write) :: rest => do
          send (procId, keyId, .write, holder)
          putKeyState keyId { keyState.registerWriter procId with pendingRequest := rest }
      | (_, .read) :: _ => grantReads keyId holder keyState.pendingRequest
      | _ => Exec.panic "Unexpected request type"

/-- Request read access for a process. Multiple read are possible at the same time. -/
def read (iter : SetIter ProcId) (procId : ProcId) (keyId : KeyId) : Method ProcId := do
  let keyState ← getKeyState keyId
  let requestingWriter := keyState.pendingRequest.head?.any fun req => req.2 == .write
  if keyState.writer.isSome ∨ requestingWriter then
    putKeyState keyId
      { keyState with pendingRequest := keyState.pendingRequest ++ [(procId, .read)] }
    Exec.throw (.requestAccess procId keyId)
  else
    let keyState := keyState.registerReader procId
    putKeyState keyId keyState
    pure (keyState.holder iter)

/-- Release write / read access for a process. -/
def release (iter : SetIter ProcId) (procId : ProcId) (keyId : KeyId) : Method Unit := do
  let keyState ← getKeyState keyId
  let writerRelease := keyState.writer.any fun writer => writer == procId
  let readerRelease := decide (procId ∈ keyState.readers)
  if !writerRelease && !readerRelease then
    Exec.throw (.releaseAccess procId keyId)
  else if writerRelease then
    putKeyState keyId { keyState with writer := none }
    handleRequesting iter keyId
  else
    let readers := keyState.readers.erase procId
    putKeyState keyId { keyState with readers }
    if readers = ∅ then handleRequesting iter keyId else pure ()

/-- Request write access for a process. Only one write access at a time. -/
def write (procId : ProcId) (keyId : KeyId) : Method Unit := do
  let keyState ← getKeyState keyId
  if keyState.readers ≠ ∅ ∨ keyState.writer.isSome then
    putKeyState keyId
      { keyState with pendingRequest := keyState.pendingRequest ++ [(procId, .write)] }
    Exec.throw (.requestAccess procId keyId)
  else
    putKeyState keyId (keyState.registerWriter procId)

/-- `self.access_granted_rx.try_iter().collect()`. -/
def tryIter : Method (List AccessGranted) := do
  let messages := (← Exec.get).accessGranted.buffer
  Exec.modify fun self => { self with accessGranted := self.accessGranted.drain.2 }
  pure messages

end AccessManager

end Soros
