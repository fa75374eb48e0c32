import Soros.Lib.Mutex
import Soros.P2PServer.Basic

set_option autoImplicit false

/-! # The data store between threads

A client shares its data with the thread of its peer-to-peer server. The map of a `DataStore` is
behind a mutex, and so is each of its entries: the methods of `p2p_server.rs` are taken apart here
into what they do to the mutexes and to the map, and interleaved on any number of threads.

`DataStore.create`, `write`, `delete` and `get` are one step each in the rest of the model. That
they may be is `methods_serial`. -/

namespace Soros

namespace DataStore

/-! ## The methods, operation by operation -/

inductive Lock where
  | dataMap
  | entry (key : KeyId)
  deriving DecidableEq

/-- What a thread does to the map, or to an entry that it has found. -/
inductive Access where
  | insert (key : KeyId) (data : String)
  | find (key : KeyId)
  | remove (key : KeyId)
  | load (key : KeyId)
  | store (key : KeyId) (data : String)

def Access.Result : Access → Type
  | .find _ => Bool
  | .load _ => String
  | _ => Unit

/-- An entry that has been found is there as long as the map is locked: `load` never sees another. -/
def Access.apply : (a : Access) → DataStore → a.Result × DataStore
  | .insert key data, self => ((), ⟨Function.update self.dataMap key (some data)⟩)
  | .find key, self => ((self.dataMap key).isSome, self)
  | .remove key, self => ((), ⟨Function.update self.dataMap key none⟩)
  | .load key, self => ((self.dataMap key).getD "", self)
  | .store key data, self => ((), ⟨Function.update self.dataMap key (some data)⟩)

/-- Code of a thread. -/
abbrev Code (α : Type) : Type := Threads.Code Lock Access.Result DataStoreError α

def lock (l : Lock) : Code Unit := Prog.perform (MutexOp.lock l)

/-- The guard goes out of scope. -/
def unlock (l : Lock) : Code Unit := Prog.perform (MutexOp.unlock l)

/-- `Mutex::new(..)`, for an entry. -/
def newMutex (key : KeyId) : Code Unit := Prog.perform (MutexOp.fresh (.entry key))

def access (a : Access) : Code a.Result := Prog.perform (MutexOp.act a)

def createCode (key : KeyId) (data : String) : Code Unit := do
  lock .dataMap
  newMutex key
  access (.insert key data)
  unlock .dataMap

def writeCode (key : KeyId) (newData : String) : Code Unit := do
  lock .dataMap
  let found : Bool ← access (.find key)
  if found then
    lock (.entry key)
    access (.store key newData)
    unlock (.entry key)
    unlock .dataMap
  else
    unlock .dataMap
    Prog.throw (.keyDoesNotExists key)

def deleteCode (key : KeyId) : Code Unit := do
  lock .dataMap
  access (.remove key)
  unlock .dataMap

def getCode (key : KeyId) : Code String := do
  lock .dataMap
  let found : Bool ← access (.find key)
  if found then
    lock (.entry key)
    let data : String ← access (.load key)
    unlock (.entry key)
    unlock .dataMap
    pure data
  else
    unlock .dataMap
    Prog.throw (.keyDoesNotExists key)

inductive Call where
  | create (key : KeyId) (data : String)
  | write (key : KeyId) (newData : String)
  | delete (key : KeyId)
  | get (key : KeyId)

/-- The method that a call runs; `get` alone has a result. -/
def Call.method : Call → Method (Option String)
  | .create key data => do DataStore.create key data; pure none
  | .write key newData => do DataStore.write key newData; pure none
  | .delete key => do DataStore.delete key; pure none
  | .get key => do let data ← DataStore.get key; pure (some data)

/-- Its operations. -/
def Call.code : Call → Code (Option String)
  | .create key data => do createCode key data; pure none
  | .write key newData => do writeCode key newData; pure none
  | .delete key => do deleteCode key; pure none
  | .get key => do let data ← getCode key; pure (some data)

theorem entry_free (key : KeyId) :
    Lock.entry key ≠ Lock.dataMap ∧ Lock.entry key ∉ ([] : List Lock) :=
  ⟨by simp, by simp⟩

/-- The methods do everything under the mutex of the map. -/
theorem code_guarded (c : Call) : Threads.Guarded Lock.dataMap c.code := by
  cases c with
  | create key data =>
      obtain ⟨hne, hfree⟩ := entry_free key
      exact Threads.Guarded.lock (.fresh hne hfree (.act fun _ => .leave rfl))
  | write key newData =>
      obtain ⟨hne, hfree⟩ := entry_free key
      refine Threads.Guarded.lock (.act fun found => ?_)
      cases (found : Bool) with
      | true => exact .lock hne hfree (.act fun _ => .unlock hne hfree (.leave rfl))
      | false => exact .leave rfl
  | delete key => exact Threads.Guarded.lock (.act fun _ => .leave rfl)
  | get key =>
      obtain ⟨hne, hfree⟩ := entry_free key
      refine Threads.Guarded.lock (.act fun found => ?_)
      cases (found : Bool) with
      | true => exact .lock hne hfree (.act fun _ => .unlock hne hfree (.leave rfl))
      | false => exact .leave rfl

theorem write_run (key : KeyId) (newData : String) (d : DataStore) :
    (DataStore.write key newData).run d = match d.dataMap key with
      | none => (.err (.keyDoesNotExists key), d)
      | some _ => (.ok (), ⟨Function.update d.dataMap key (some newData)⟩) := by
  unfold DataStore.write
  rw [Exec.bind_ok (Exec.get_run d)]
  cases d.dataMap key <;> rfl

theorem get_run (key : KeyId) (d : DataStore) :
    (DataStore.get key).run d = match d.dataMap key with
      | none => (.err (.keyDoesNotExists key), d)
      | some data => (.ok data, d) := by
  unfold DataStore.get
  rw [Exec.bind_ok (Exec.get_run d)]
  cases d.dataMap key <;> rfl

/-- On its own, the code of a method does what the method does. -/
theorem alone_code (c : Call) (d : DataStore) :
    (Outcome.ofExcept (Threads.alone Access.apply c.code d).1, (Threads.alone Access.apply c.code d).2)
      = c.method.run d := by
  cases c with
  | create key data => rfl
  | delete key => rfl
  | write key newData =>
      rw [Call.method, Exec.bind_run, write_run]
      cases hkey : d.dataMap key <;>
        simp [Call.code, writeCode, lock, unlock, access, Prog.perform, Prog.throw, bind, Prog.bind,
          Pure.pure, Prog.pure, Threads.alone, Access.apply, hkey, Outcome.ofExcept, Exec.pure]
  | get key =>
      rw [Call.method, Exec.bind_run, get_run]
      cases hkey : d.dataMap key <;>
        simp [Call.code, getCode, lock, unlock, access, Prog.perform, Prog.throw, bind, Prog.bind,
          Pure.pure, Prog.pure, Threads.alone, Access.apply, hkey, Outcome.ofExcept, Exec.pure]

/-! ## Any number of threads -/

variable {T : Type}

/-- A method has returned to the thread that has called it. -/
structure Returned (T : Type) where
  thread : T
  call : Call
  outcome : Outcome DataStoreError (Option String)

/-- The methods, one at a time. -/
def methods (T : Type) (d : DataStore) : IOMachine DataStore (T × Call) (Returned T) where
  start := d
  step d call :=
    let r := call.2.method.run d
    (r.2, [⟨call.1, call.2, r.1⟩])

/-- Threads that share the data. -/
def threads (T : Type) [DecidableEq T] (d : DataStore) :
    IOMachine (Threads.State T Lock DataStore Call Access.Result DataStoreError (Option String))
      (Threads.Input T Call) (Threads.Return T Call DataStoreError (Option String)) :=
  Threads.machine Access.apply Call.code d

/-- What has been returned, and to whom. -/
def returned (e : Threads.Return T Call DataStoreError (Option String)) : Returned T :=
  ⟨e.thread, e.call, .ofExcept e.result⟩

theorem serial_methods (d : DataStore) (calls : List (T × Call)) :
    ((Threads.serial Access.apply Call.code d).run calls).1 = ((methods T d).run calls).1 ∧
      ((methods T d).run calls).2
        = ((Threads.serial Access.apply Call.code d).run calls).2.map returned := by
  have hrun := IOMachine.exec_simulation (M := Threads.serial Access.apply Call.code d)
    (N := methods T d) (R := Eq) id returned (fun d₁ d₂ call heq => ?_) (show d = d from rfl) calls
  · rw [List.map_id] at hrun
    exact hrun
  · subst heq
    have halone := alone_code call.2 d₁
    refine ⟨congrArg Prod.snd halone, ?_⟩
    dsimp only [methods, Threads.serial]
    rw [id, ← halone]
    rfl

variable [DecidableEq T]

/-- **The methods are atomic.** Whatever the threads do and however they are interleaved, the
methods return what they would one at a time, in the order in which they return; and whenever the
map is not locked, the data is what they have left. -/
theorem methods_serial (d : DataStore) (inputs : List (Threads.Input T Call)) :
    let r := (threads T d).run inputs
    let r' := (methods T d).run (r.2.map fun e => (e.thread, e.call))
    r'.2 = r.2.map returned ∧ (r.1.owner .dataMap = none → r.1.data = r'.1) := by
  obtain ⟨hsame, hdata⟩ := Threads.run_serial Access.apply code_guarded d inputs
  obtain ⟨hend, hreturned⟩ := serial_methods d
    (((threads T d).run inputs).2.map fun e => (e.thread, e.call))
  refine ⟨hreturned.trans (congrArg _ hsame), fun hfree => ?_⟩
  rw [← hend]
  exact hdata hfree

/-- **No thread waits for an entry**, and none waits for ever: while a method is in progress, one
of the threads can go on, and a thread that cannot has not begun its work and waits for another
to unlock the map. -/
theorem methods_progress (d : DataStore) (inputs : List (Threads.Input T Call)) (t : T)
    (c : Call) (rest : Code (Option String))
    (hrunning : ((threads T d).run inputs).1.running t = some (c, rest)) :
    (∃ t', Threads.ready Access.apply ((threads T d).run inputs).1 t' = true) ∧
      (Threads.ready Access.apply ((threads T d).run inputs).1 t = false →
        rest = c.code ∧ ∃ t', t' ≠ t ∧ ((threads T d).run inputs).1.owner .dataMap = some t') := by
  have hcalls : ((threads T d).run inputs).1.running t ≠ none := by
    rw [hrunning]
    exact Option.some_ne_none _
  exact ⟨Threads.run_progress code_guarded d inputs t hcalls,
    fun hblocked => Threads.run_unblocked code_guarded d inputs t c rest hrunning hblocked⟩

/-- The map is locked by the thread that creates an entry while the other asks for it. -/
theorem methods_progress_two :
    let s := ((threads Nat .new).run [.call 0 (.create 1 "value"), .go 0, .call 1 (.get 1)]).1
    (∃ t, Threads.ready Access.apply s t = true) ∧
      (Threads.ready Access.apply s 1 = false →
        (Call.get 1).code = (Call.get 1).code ∧ ∃ t, t ≠ 1 ∧ s.owner .dataMap = some t) :=
  methods_progress .new [.call 0 (.create 1 "value"), .go 0, .call 1 (.get 1)] 1 (.get 1) _ rfl

end DataStore

end Soros
