import Soros.AccessManager.History

set_option autoImplicit false

/-! # Mutual exclusion

No run of the access manager puts a writer next to readers, and no grant of
`handle_requesting`, which looks at neither, displaces a holder: `release` calls it only on a
key that nobody holds any more. -/

namespace Soros

open RwLock

namespace AccessManager

/-- A fair lock written down as the state of a key is held exclusively. -/
theorem ofLock_exclusive (l : FairLock ProcId) (c : ProcId) :
    ((KeyState.ofLock l.toLock c).writer ≠ none ∧ (KeyState.ofLock l.toLock c).readers = ∅)
      ∨ (KeyState.ofLock l.toLock c).writer = none := by
  by_cases hw : l.writer = none
  · exact Or.inr hw
  · exact Or.inl ⟨hw, l.exclusive hw⟩

/-- The batch `handle_requesting` grants on a free key: if a write is in it, it is alone. -/
theorem handleRequesting_batch {m : AccessManager} {k : KeyId} {c : ProcId} {l : Lock ProcId}
    (iter : SetIter ProcId) (hidle : l.Idle) (hconn : m.accessGranted.connected = true)
    (hk : m.keyStates k = some (KeyState.ofLock l c)) :
    ∀ a ∈ m.sentSince ((handleRequesting iter k).run m).2, a.2.2.1 = .write →
      m.sentSince ((handleRequesting iter k).run m).2 = [a] := by
  rw [handleRequesting_run iter hidle hconn hk, sentSince_settled]
  intro a ha hwrite
  rcases Lock.settle_of_idle hidle l.queue with hreads | ⟨p, hp⟩
  · obtain ⟨e, he, rfl⟩ := List.mem_map.1 ha
    rw [grantMessage, hreads e he] at hwrite
    cases hwrite
  · rw [hp] at ha ⊢
    rw [List.map_singleton, List.mem_singleton] at ha
    rw [ha]
    rfl

/-- **Mutual exclusion.** After any calls, each key has a writer and no reader, or no writer.
Whenever `release` goes on to `handle_requesting`, it does so on a key without writer and
readers, and a write it grants there is the only grant of the batch. -/
theorem writer_excludes_readers (inputs : List Input) :
    let m := (machine.run inputs).1
    (∀ k ks, m.keyStates k = some ks → (ks.writer ≠ none ∧ ks.readers = ∅) ∨ ks.writer = none) ∧
    ∀ iter p k m', m.handlingEntry p k = some m' →
      (release iter p k).run m = (handleRequesting iter k).run m' ∧
      (∃ ks, m'.keyStates k = some ks ∧ ks.writer = none ∧ ks.readers = ∅) ∧
      ∀ a ∈ m'.sentSince ((handleRequesting iter k).run m').2, a.2.2.1 = .write →
        m'.sentSince ((handleRequesting iter k).run m').2 = [a] := by
  intro m
  have hv : m.Valid := run_valid inputs
  refine ⟨fun k ks hk => ?_, fun iter p k m' hentry => ?_⟩
  · obtain ⟨l, c, rfl⟩ := hv.fair k ks hk
    exact ofLock_exclusive l c
  · have hrun := release_run_entry iter p hentry
    cases hk : m.keyStates k with
    | none => simp [handlingEntry, hk] at hentry
    | some ks =>
        obtain ⟨l, c, rfl⟩ := hv.fair k ks hk
        rw [handlingEntry_ofLock p hk] at hentry
        split at hentry
        · rename_i hfree
          cases hentry
          have hk' : (m.setKeyState k (KeyState.ofLock (l.drop p) c)).keyStates k
              = some (KeyState.ofLock (l.drop p) c) := by simp
          exact ⟨hrun, ⟨_, hk', hfree.2.2, hfree.2.1⟩,
            handleRequesting_batch iter hfree.2 hv.connected hk'⟩
        · cases hentry

end AccessManager

end Soros
