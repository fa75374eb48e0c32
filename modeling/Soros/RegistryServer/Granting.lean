import Soros.RegistryServer.Spec

set_option autoImplicit false

/-! # How the registry tells processes of their accesses

`grantPending` is the loop of `handle_request` over the channel. An access that is `Handled` does
not stop it: a batch of such accesses is delivered as a whole (`grantPending_clear`), and any other
batch up to the first access that is not (`grantPending_stops`). -/

namespace Soros

namespace Host

variable {Bytes : Type}

/-- The host after it has written more. -/
def wrote (h : Host Bytes) (more : List (TcpStream × Bytes)) : Host Bytes :=
  { h with written := h.written ++ more, clientWrites := h.clientWrites + more.length }

@[simp] theorem wrote_server (h : Host Bytes) (more : List (TcpStream × Bytes)) :
    (h.wrote more).server = h.server := rfl

theorem wrote_wrote (h : Host Bytes) (more more' : List (TcpStream × Bytes)) :
    (h.wrote more).wrote more' = h.wrote (more ++ more') := by
  simp [wrote, Nat.add_assoc]

end Host

namespace RegistryServer

variable {Bytes : Type} (serde : Serde Bytes)

/-! ## One response -/

/-- A response as it is written on a socket. -/
def encode (response : RegistryResponse) : Bytes := serde.toVec (.registry (.response response))

/-- The response for a process that has been granted access, if the holder is known. -/
def grantAnswer (s : RegistryServer) (a : AccessGranted) : Option RegistryResponse :=
  match a.2.2.1 with
  | .read => (s.tokenAddrMap a.2.2.2).map fun addr => .holder a.2.1 addr
  | .write => some (.success a.2.1)
  | _ => none

/-- What is written for a process that has been granted access: nothing if it has gone. -/
def delivery (s : RegistryServer) (a : AccessGranted) : Option (TcpStream × Bytes) :=
  (s.tokenStreamMap a.1).bind fun stream =>
    (grantAnswer s a).map fun response => (stream, encode serde response)

section

variable {env : Env} {h : Host Bytes}

/-- `handle_response` for a connected process. -/
theorem handleResponse_connected (env : Env) {token : Token} {stream : TcpStream}
    (hstream : h.server.tokenStreamMap token = some stream) (response : RegistryResponse) :
    (handleResponse serde env token response).run h = match env.clientWrite stream h.clientWrites with
      | none => (.ok (), h.wrote [(stream, encode serde response)])
      | some e => (.err (.ioError e), { h with clientWrites := h.clientWrites + 1 }) := by
  unfold handleResponse
  rw [Exec.bind_ok (Exec.get_run h), hstream]
  exact writeAll_run env stream _ h

theorem handleResponse_run {token : Token} {stream : TcpStream}
    (hwrite : env.clientWrite stream h.clientWrites = none)
    (hstream : h.server.tokenStreamMap token = some stream) (response : RegistryResponse) :
    (handleResponse serde env token response).run h
      = (.ok (), h.wrote [(stream, encode serde response)]) := by
  rw [handleResponse_connected serde env hstream, hwrite]

theorem handleResponse_run_gone {token : Token}
    (hstream : h.server.tokenStreamMap token = none) (response : RegistryResponse) :
    (handleResponse serde env token response).run h = (.err (.invalidToken token), h) := by
  unfold handleResponse
  rw [Exec.bind_ok (Exec.get_run h), hstream]
  rfl

theorem grantResponse_state (a : AccessGranted) (h : Host Bytes) :
    ((grantResponse a).run h).2 = h := by
  unfold grantResponse
  cases a.2.2.1 with
  | read =>
      dsimp only
      rw [Exec.bind_run, procIdToAddr_run]
      cases h.server.tokenAddrMap a.2.2.2 <;> rfl
  | write | create | delete | release => rfl

theorem grantResponse_run {a : AccessGranted} {response : RegistryResponse}
    (hanswer : grantAnswer h.server a = some response) :
    (grantResponse a).run h = (.ok response, h) := by
  obtain ⟨p, k, t, holder⟩ := a
  cases t with
  | read =>
      show (procIdToAddr holder >>= _).run h = _
      cases haddr : h.server.tokenAddrMap holder with
      | none => simp [grantAnswer, haddr] at hanswer
      | some addr =>
          obtain rfl : RegistryResponse.holder k addr = response := by
            simpa [grantAnswer, haddr] using hanswer
          rw [Exec.bind_run, procIdToAddr_run, haddr]
          rfl
  | write => cases hanswer; rfl
  | create | delete | release => cases hanswer

theorem grantResponse_unknown {a : AccessGranted} (ht : a.2.2.1 = .read ∨ a.2.2.1 = .write)
    (hunknown : grantAnswer h.server a = none) :
    (grantResponse a).run h = (.err (.unknownHolder a.2.2.2), h) := by
  obtain ⟨p, k, t, holder⟩ := a
  rcases ht with ht | ht
  · cases ht
    have haddr : h.server.tokenAddrMap holder = none := by simpa [grantAnswer] using hunknown
    show (procIdToAddr holder >>= _).run h = _
    rw [Exec.bind_run, procIdToAddr_run, haddr]
  · cases ht
    cases hunknown

end

/-! ## The loop over the accesses -/

/-- Every write to a client that is connected succeeds. -/
def Open (env : Env) (s : RegistryServer) : Prop :=
  ∀ token, ∀ stream ∈ s.tokenStreamMap token, ∀ n, env.clientWrite stream n = none

/-- The number of writes that the accesses of a batch call for: those of connected processes. -/
def writesFor (s : RegistryServer) (batch : List AccessGranted) : Nat :=
  (batch.filter fun a => (s.tokenStreamMap a.1).isSome).length

/-- The access does not stop the loop: the address of the holder is known, and the write, which
would be the `n`-th of the step, succeeds if the process is connected. -/
def Handled (env : Env) (s : RegistryServer) (n : Nat) (a : AccessGranted) : Prop :=
  (grantAnswer s a).isSome ∧ ∀ stream ∈ s.tokenStreamMap a.1, env.clientWrite stream n = none

/-- No access of the batch stops the loop. -/
def Clear (env : Env) (s : RegistryServer) : Nat → List AccessGranted → Prop
  | _, [] => True
  | n, a :: batch => Handled env s n a ∧ Clear env s (n + writesFor s [a]) batch

/-- The channel holds grants of read and write requests only. -/
def GrantsOnly (batch : List AccessGranted) : Prop :=
  ∀ a ∈ batch, a.2.2.1 = .read ∨ a.2.2.1 = .write

theorem writesFor_append (s : RegistryServer) (batch batch' : List AccessGranted) :
    writesFor s (batch ++ batch') = writesFor s batch + writesFor s batch' := by
  simp [writesFor]

theorem writesFor_cons (s : RegistryServer) (a : AccessGranted) (batch : List AccessGranted) :
    writesFor s (a :: batch) = writesFor s [a] + writesFor s batch :=
  writesFor_append s [a] batch

theorem clear_append {env : Env} {s : RegistryServer} {n : Nat} {batch batch' : List AccessGranted} :
    Clear env s n (batch ++ batch') ↔
      Clear env s n batch ∧ Clear env s (n + writesFor s batch) batch' := by
  induction batch generalizing n with
  | nil => simp [Clear, writesFor]
  | cons a batch ih =>
      simp only [List.cons_append, Clear, ih, writesFor_cons s a batch, Nat.add_assoc, and_assoc]

/-- The access manager has no part in it. -/
theorem Clear.withManager {env : Env} {s : RegistryServer} {n : Nat} {batch : List AccessGranted}
    (h : Clear env s n batch) (m : AccessManager) :
    Clear env { s with accessManager := m } n batch := by
  induction batch generalizing n with
  | nil => trivial
  | cons a batch ih => exact ⟨h.1, ih h.2⟩

/-- A batch is clear, or some access is the first to stop the loop. -/
theorem clear_or_stops (env : Env) (s : RegistryServer) (n : Nat) (batch : List AccessGranted) :
    Clear env s n batch ∨ ∃ done a rest, batch = done ++ a :: rest ∧ Clear env s n done ∧
      ¬ Handled env s (n + writesFor s done) a := by
  induction batch generalizing n with
  | nil => exact Or.inl trivial
  | cons a batch ih =>
      by_cases ha : Handled env s n a
      · rcases ih (n + writesFor s [a]) with hclear | ⟨done, b, rest, rfl, hdone, hb⟩
        · exact Or.inl ⟨ha, hclear⟩
        · refine Or.inr ⟨a :: done, b, rest, rfl, ⟨ha, hdone⟩, ?_⟩
          rwa [writesFor_cons, ← Nat.add_assoc]
      · exact Or.inr ⟨[], a, batch, rfl, trivial, ha⟩

/-- Where every write succeeds a batch is clear if the holders are known. -/
theorem clear_of_writes {env : Env} {s : RegistryServer} (hopen : Open env s)
    {batch : List AccessGranted}
    (hgrants : ∀ a ∈ batch, (grantAnswer s a).isSome) (n : Nat) : Clear env s n batch := by
  induction batch generalizing n with
  | nil => trivial
  | cons a batch ih =>
      exact ⟨⟨hgrants a List.mem_cons_self, fun stream hstream => hopen a.1 stream hstream n⟩,
        ih (fun b hb => hgrants b (List.mem_cons_of_mem a hb)) _⟩

section

variable {env : Env} {h : Host Bytes}

theorem deliver_handled {a : AccessGranted} (ha : Handled env h.server h.clientWrites a) :
    (deliver serde env a).run h = (.ok (), h.wrote (delivery serde h.server a).toList) := by
  obtain ⟨response, hresponse⟩ := Option.isSome_iff_exists.1 ha.1
  unfold deliver delivery
  rw [Exec.bind_ok (grantResponse_run hresponse)]
  cases hstream : h.server.tokenStreamMap a.1 with
  | none =>
      rw [Exec.bind_ok (Exec.attempt_err (handleResponse_run_gone serde hstream response))]
      simp [Host.wrote]
  | some stream =>
      have hwrite := handleResponse_connected serde env hstream response
      rw [ha.2 stream hstream] at hwrite
      rw [Exec.bind_ok (Exec.attempt_ok hwrite)]
      simp [hresponse]

/-- An access that stops the loop: nothing is written for it. -/
theorem deliver_stops {a : AccessGranted} (ht : a.2.2.1 = .read ∨ a.2.2.1 = .write)
    (ha : ¬ Handled env h.server h.clientWrites a) :
    ∃ e, e ≠ .stopRequest ∧ (deliver serde env a).run h = (.err e, { h with
      clientWrites := h.clientWrites + if (grantAnswer h.server a).isSome then 1 else 0 }) := by
  unfold deliver
  cases hanswer : grantAnswer h.server a with
  | none =>
      refine ⟨.unknownHolder a.2.2.2, by simp, ?_⟩
      rw [Exec.bind_err (grantResponse_unknown ht hanswer)]
      rfl
  | some response =>
      rw [Exec.bind_ok (grantResponse_run hanswer)]
      cases hstream : h.server.tokenStreamMap a.1 with
      | none => exact absurd ⟨by rw [hanswer]; rfl, by simp [hstream]⟩ ha
      | some stream =>
          have hwrite := handleResponse_connected serde env hstream response
          cases he : env.clientWrite stream h.clientWrites with
          | none =>
              refine absurd ⟨by rw [hanswer]; rfl, fun stream' hstream' => ?_⟩ ha
              obtain rfl := Option.some.inj (hstream.symm.trans hstream')
              exact he
          | some e =>
              rw [he] at hwrite
              refine ⟨.ioError e, by simp, ?_⟩
              rw [Exec.bind_ok (Exec.attempt_err hwrite)]
              rfl

/-- The messages for a clear batch are as many as the writes it calls for. -/
theorem length_deliveries {s : RegistryServer} {n : Nat} {batch : List AccessGranted}
    (hclear : Clear env s n batch) :
    (batch.filterMap (delivery serde s)).length = writesFor s batch := by
  induction batch generalizing n with
  | nil => rfl
  | cons a batch ih =>
      obtain ⟨response, hresponse⟩ := Option.isSome_iff_exists.1 hclear.1.1
      have hone : (delivery serde s a).toList.length = writesFor s [a] := by
        cases hstream : s.tokenStreamMap a.1 <;> simp [delivery, writesFor, hstream, hresponse]
      rw [writesFor_cons, ← ih hclear.2, ← hone]
      cases hdelivery : delivery serde s a with
      | none => simp [hdelivery]
      | some w => simp [hdelivery, Nat.add_comm]

/-- The loop over a clear batch comes to its end. -/
theorem grantPending_clear {batch : List AccessGranted}
    (hclear : Clear env h.server h.clientWrites batch) :
    (grantPending serde env batch).run h
      = (.ok (), h.wrote (batch.filterMap (delivery serde h.server))) := by
  induction batch generalizing h with
  | nil => simp [grantPending, Host.wrote]
  | cons a batch ih =>
      have hone : Clear env h.server h.clientWrites [a] := ⟨hclear.1, trivial⟩
      have hlength := length_deliveries serde hone
      have hdeliveries : [a].filterMap (delivery serde h.server)
          = (delivery serde h.server a).toList := by
        cases hdelivery : delivery serde h.server a <;> simp [hdelivery]
      have hrest := hclear.2
      rw [← hlength, hdeliveries] at hrest
      unfold grantPending
      rw [Exec.bind_ok (deliver_handled serde hclear.1), ih hrest, Host.wrote_wrote,
        ← List.singleton_append, List.filterMap_append, hdeliveries]
      rfl

theorem grantPending_append (batch batch' : List AccessGranted) :
    grantPending serde env (batch ++ batch')
      = (do grantPending serde env batch; grantPending serde env batch') := by
  induction batch with
  | nil => rfl
  | cons a batch ih =>
      rw [List.cons_append, grantPending, ih, grantPending]
      exact (bind_assoc (deliver serde env a) _ _).symm

/-- The loop ends at the first access that stops it. -/
theorem grantPending_stops {done : List AccessGranted} (rest : List AccessGranted)
    {a : AccessGranted}
    (ht : a.2.2.1 = .read ∨ a.2.2.1 = .write) (hdone : Clear env h.server h.clientWrites done)
    (ha : ¬ Handled env h.server (h.clientWrites + writesFor h.server done) a) :
    ∃ e, e ≠ .stopRequest ∧ (grantPending serde env (done ++ a :: rest)).run h
      = (.err e, { h with
        written := h.written ++ done.filterMap (delivery serde h.server)
        clientWrites := h.clientWrites + writesFor h.server done
          + if (grantAnswer h.server a).isSome then 1 else 0 }) := by
  have hlength := length_deliveries serde hdone
  rw [← hlength] at ha ⊢
  obtain ⟨e, hstop, hrun⟩ := deliver_stops serde (h := h.wrote
    (done.filterMap (delivery serde h.server))) ht ha
  refine ⟨e, hstop, ?_⟩
  rw [grantPending_append, Exec.bind_ok (grantPending_clear serde hdone), grantPending,
    Exec.bind_err hrun]
  rfl

end

end RegistryServer

end Soros
