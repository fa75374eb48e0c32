import Soros.P2PServer.Settling
import Soros.RegistryServer.Accepting
import Soros.RegistryServer.Endings
import Soros.Wire.Decode

set_option autoImplicit false

/-! # Which input crashes a server

The two servers read a message alike: what cannot be decoded is an error, and on the way to it the
data is printed as a text. So bytes that are no text crash the server that should refuse them
(`noText_panics`). Nothing else does (`handleRequest_returns_iff`). -/

namespace Soros

variable {Bytes : Type} (serde : Serde Bytes)

namespace P2PServer

open RegistryServer (Legible not_legible)

/-- How the peer-to-peer server takes any data. -/
theorem handleRequest_outcome (env : Env) (token : Token) (data : Bytes) (h : P2PHost Bytes) :
    ((handleRequest serde env token data).run h).1.Returns ↔ Legible serde data := by
  unfold handleRequest
  rw [Exec.bind_run, parse_run]
  cases hparse : serde.fromSlice data with
  | error text =>
      dsimp only
      cases hutf8 : serde.isUtf8 data with
      | false =>
          rw [if_neg (by simp)]
          exact iff_of_false (Outcome.not_returns_panic _) (not_legible serde hparse hutf8)
      | true =>
          rw [if_pos rfl]
          exact iff_of_true (Outcome.returns_err _) (Or.inr hutf8)
  | ok message =>
      -- a message may be refused, or the write may fail, but all that is returned
      refine iff_of_true ?_ (Or.inl ⟨message, hparse⟩)
      dsimp only
      rw [Exec.bind_run, handleMessage_run]
      have hreply : (reply h.server.dataStore message).Returns := by
        unfold reply
        split
        · split
          · exact Outcome.returns_err _
          · exact Outcome.returns_ok _
        · exact Outcome.returns_err _
      obtain ⟨r, hr⟩ := hreply
      rw [hr]
      cases r with
      | error e => exact Outcome.returns_err e
      | ok response =>
          dsimp only [Outcome.ofExcept]
          rw [Exec.bind_ok (Exec.get_run h)]
          cases h.server.tokenStreamMap token with
          | none => exact Outcome.returns_err _
          | some stream =>
              dsimp only
              unfold writeAll
              cases env.write with
              | none => exact Outcome.returns_ok _
              | some e => exact Outcome.returns_err _

end P2PServer

namespace RegistryServer

/-- The data is the first request that a primary server completes. It leaves then. -/
structure LastRequest (s : RegistryServer) (env : Env) (token : Token) (data : Bytes) : Prop where
  primary : s.backupStream.isSome
  first : s.requestCounter = 0
  completes : ∃ message, serde.fromSlice data = .ok message ∧ s.Accepts env message ∧
    Completes env s token (s.accessManager.accessGranted.buffer ++ s.letsIn message)

/-- A message is the last one if `handle_message` accepts it and nothing fails afterwards. -/
theorem lastRequest_iff {s : RegistryServer} (hs : s.Orderly) {env : Env} {token : Token}
    {data : Bytes} {message : Message} (hparse : serde.fromSlice data = .ok message) :
    LastRequest serde s env token data ↔ s.backupStream.isSome ∧ s.requestCounter = 0 ∧
      (∃ response, result serde s env message = .ok response) ∧
      Completes env s token (batchOf serde s env data) := by
  rw [accepts_iff serde hs.1, batchOf_letsIn serde hs.1 hparse]
  constructor
  · rintro ⟨hbackup, hfirst, message', hparse', haccepts, hcompletes⟩
    obtain rfl := Except.ok.inj (hparse.symm.trans hparse')
    exact ⟨hbackup, hfirst, haccepts, hcompletes⟩
  · rintro ⟨hbackup, hfirst, haccepts, hcompletes⟩
    exact ⟨hbackup, hfirst, message, hparse, haccepts, hcompletes⟩

/-- How the registry takes any data. -/
theorem handleRequest_outcome {s : RegistryServer} (hs : s.Orderly) (env : Env) (token : Token)
    (data : Bytes) :
    ((handleRequest serde env token data).run s.enter).1.Returns ↔
      Legible serde data ∧ ¬ LastRequest serde s env token data := by
  have hends := handleRequest_ends serde hs.1 hs.2 env token data
  generalize ((handleRequest serde env token data).run s.enter).1 = o at hends ⊢
  cases hends with
  | malformed text hparse hutf8 =>
      refine iff_of_true (Outcome.returns_err _) ⟨Or.inr hutf8, fun hlast => ?_⟩
      obtain ⟨message, hmessage, -⟩ := hlast.completes
      exact absurd (hparse.symm.trans hmessage) (by simp)
  | illegible text msg hparse hutf8 =>
      exact iff_of_false (Outcome.not_returns_panic _) fun h => not_legible serde hparse hutf8 h.1
  | stop hparse =>
      refine iff_of_true (Outcome.returns_err _) ⟨Or.inl ⟨_, hparse⟩, fun hlast => ?_⟩
      obtain ⟨-, -, ⟨response, hok⟩, -⟩ := (lastRequest_iff serde hs hparse).1 hlast
      cases hok
  | refused message e hparse herr hstop =>
      refine iff_of_true (Outcome.returns_err _) ⟨Or.inl ⟨_, hparse⟩, fun hlast => ?_⟩
      obtain ⟨-, -, ⟨response, hok⟩, -⟩ := (lastRequest_iff serde hs hparse).1 hlast
      exact absurd (herr.symm.trans hok) (by simp)
  | failed message response e hparse hok hstop hfailed =>
      refine iff_of_true (Outcome.returns_err _) ⟨Or.inl ⟨_, hparse⟩, fun hlast => ?_⟩
      obtain ⟨-, -, -, hcompletes⟩ := (lastRequest_iff serde hs hparse).1 hlast
      exact hfailed hcompletes
  | served message response hparse hok hcompletes o ho =>
      -- nothing has failed: the one way to leave
      rw [ho]
      unfold lastOutcome
      split
      · rename_i hlast
        rw [Bool.and_eq_true, beq_iff_eq] at hlast
        refine iff_of_false (Outcome.not_returns_exit 0) fun h => h.2 ?_
        exact (lastRequest_iff serde hs hparse).2
          ⟨hlast.1, by omega, ⟨response, hok⟩, hcompletes⟩
      · rename_i hlast
        refine iff_of_true (Outcome.returns_ok ()) ⟨Or.inl ⟨_, hparse⟩, fun h => hlast ?_⟩
        rw [Bool.and_eq_true, beq_iff_eq]
        exact ⟨h.primary, by rw [h.first]⟩

end RegistryServer

/-- Both servers return from `handle_request`: the registry `s` and the peer-to-peer server `p`,
each on the connection that the data has come from. -/
def BothReturn (s : RegistryServer) (env : Env) (p : P2PServer) (env' : P2PServer.Env)
    (token token' : Token) (data : Bytes) : Prop :=
  ((RegistryServer.handleRequest serde env token data).run s.enter).1.Returns ∧
    ((P2PServer.handleRequest serde env' token' data).run p.enter).1.Returns

/-- **What the servers return from**: every message and every text. Only a primary registry has
nothing to return to after its first request, since it leaves. -/
theorem handleRequest_returns_iff (secondaryServer : Option (SocketAddr × TcpStream))
    (inputs : List (RegistryServer.Input Bytes)) (env : Env) (p : P2PServer) (env' : P2PServer.Env)
    (token token' : Token) (data : Bytes) :
    BothReturn serde ((RegistryServer.machine serde secondaryServer).run inputs).1 env p env' token
        token' data ↔
      RegistryServer.Legible serde data ∧ ¬ RegistryServer.LastRequest serde
        ((RegistryServer.machine serde secondaryServer).run inputs).1 env token data := by
  have horderly := RegistryServer.run_grantsOnly serde secondaryServer inputs
  rw [BothReturn, RegistryServer.handleRequest_outcome serde horderly,
    P2PServer.handleRequest_outcome]
  exact ⟨fun h => h.1, fun h => ⟨h, h.1⟩⟩

/-- One byte that begins no UTF-8 sequence, on the first connection of each server: both panic. -/
theorem noText_panics :
    ¬ ((RegistryServer.handleRequest Serde.json (Env.calm .ascending) 1000 [255]).run
      ((RegistryServer.machine Serde.json none).run
        [.connection (Env.calm .ascending) 10 ⟨"127.0.0.1", 8888⟩]).1.enter).1.Returns ∧
    ¬ ((P2PServer.handleRequest Serde.json P2PServer.Env.calm 1 [255]).run
      (P2PServer.withPeer .new).enter).1.Returns := by
  have hnoText : ¬ RegistryServer.Legible Serde.json [255] :=
    RegistryServer.not_legible Serde.json rfl (by decide)
  constructor
  · rw [RegistryServer.handleRequest_outcome Serde.json
      (RegistryServer.run_grantsOnly Serde.json none _)]
    exact fun h => hnoText h.1
  · rw [P2PServer.handleRequest_outcome]
    exact hnoText

end Soros
