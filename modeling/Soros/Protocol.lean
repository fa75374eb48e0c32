import Mathlib.Tactic.Common

set_option autoImplicit false

/-! # The messages of the protocol

The types of `protocol.rs`. Identifiers are `usize` in the source and natural numbers here. Only a
decoder of messages could tell the difference, since it refuses numbers from 2^64 on; no client or
server of the source has such an identifier to send. -/

namespace Soros

/-- Unique identifier for a process. -/
abbrev ProcId := Nat

/-- Unique identifier for a key. -/
abbrev KeyId := Nat

/-- The address of a peer; it is only stored, copied and compared. -/
structure SocketAddr where
  ip : String
  port : UInt16
  deriving DecidableEq, Repr

/-- Represents different kind of responses from the registry. -/
inductive RegistryResponse where
  | ack
  | success (keyId : KeyId)
  /-- The request cannot be fullfilled yet. -/
  | wait (keyId : KeyId)
  /-- Return a process using the data, can be used for the peer-to-peer protocol. -/
  | holder (keyId : KeyId) (addr : SocketAddr)
  | error (text : String)
  deriving DecidableEq, Repr

inductive RequestType where
  | create
  | delete
  | read
  | write
  | release
  deriving DecidableEq, Repr

/-- Represent a message related to the registry. -/
inductive RegistryMessage where
  /-- Unique proc id given by the registry server during connection. -/
  | connection (procId : ProcId)
  /-- Notify secondary server when new connection is established, send id counter. -/
  | connectionEstablished (idCounter : ProcId)
  /-- Request for accessing registry data. -/
  | request (procId : ProcId) (requestType : RequestType) (keyId : KeyId)
  /-- Response containing registry data. -/
  | response (resp : RegistryResponse)
  /-- Used for gracefully shutdown in the tests. -/
  | stopRequest
  deriving DecidableEq, Repr

/-- Represent a message related to the peer-to-peer data exchange protocol. -/
inductive DataMessage where
  | request (keyId : KeyId)
  | response (data : String)
  deriving DecidableEq, Repr

/-- Represents different types of messages exchanged in the protocol. -/
inductive Message where
  | registry (message : RegistryMessage)
  | data (message : DataMessage)
  deriving DecidableEq, Repr

end Soros
