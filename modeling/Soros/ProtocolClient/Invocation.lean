import Soros.ProtocolClient.Basic

set_option autoImplicit false

/-! # The methods as data

A client's user calls one method after the other. `Invocation` names a method and its
arguments. -/

namespace Soros

/-- The methods of a client that use the registry's socket, with their arguments. -/
inductive Invocation where
  | create (keyId : KeyId)
  | delete (keyId : KeyId)
  | read (keyId : KeyId)
  | readSync (keyId : KeyId)
  | write (keyId : KeyId)
  | writeSync (keyId : KeyId)
  | release (keyId : KeyId)
  | awaitRead
  | awaitWrite
  | stop
  deriving DecidableEq

namespace Invocation

/-- What a method returns: a key, an address, both or neither. -/
abbrev Returned := Option KeyId × Option SocketAddr

def method (self : ProtocolClient) : Invocation → ProtocolClient.Method Returned
  | .create k => do self.registryCreate k; pure (none, none)
  | .delete k => do self.registryDelete k; pure (none, none)
  | .read k => do self.registryRead k; pure (none, none)
  | .readSync k => do let addr ← self.registryReadSync k; pure (none, some addr)
  | .write k => do self.registryWrite k; pure (none, none)
  | .writeSync k => do self.registryWriteSync k; pure (none, none)
  | .release k => do self.registryRelease k; pure (none, none)
  | .awaitRead => do let res ← ProtocolClient.registryAwaitRead; pure (some res.1, some res.2)
  | .awaitWrite => do let keyId ← ProtocolClient.registryAwaitWrite; pure (some keyId, none)
  | .stop => do ProtocolClient.registryStop; pure (none, none)

/-- The access that a synchronous method waits for. -/
def access : Invocation → Option (RequestType × KeyId)
  | .readSync k => some (.read, k)
  | .writeSync k => some (.write, k)
  | _ => none

end Invocation

end Soros
