import Rocksplicator.Replicator.Registry

/-!
# `RocksDBReplicator::addDB`, `removeDB` and `write`, statement by statement

Each call runs on its own thread, and a step runs one statement of one thread;
any thread may step at any time, so a run is any interleaving of the calls. The
operations of `db_map_` are atomic: `add` inserts if absent, `remove` and `get`
are single steps. Statements that only touch a thread's own variables are run
with the next shared one (constructing `new_db` with `db_map_.add`, setting
`*replicated_db` with it). Every step that goes through `db_map_` appends its
effect to the ghost history `hist`.

A ReplicatedDB lives while a `shared_ptr` to it does: an entry of `db_map_`, a
thread's local `new_db` or `db`, or one held elsewhere (the replicator handler's
lookups, the pull loop, the cleaner locking its `weak_ptr`), which the
environment takes from a live one and drops at any time. `weak_db.expired()` is
the absence of all of them.

* `World.exec`: one statement of a thread, by call and position.
* `Step`: a new call, a statement, the end of `removeDB`'s wait, or the
  environment taking or dropping a reference.
-/

namespace Rocksplicator

namespace Replicator

/-- `ReturnCode`, as the replicator's calls return it. -/
inductive ReturnCode
  | ok
  | dbNotFound
  | dbPreExist
  | writeToSlave
  | writeError
deriving Repr, DecidableEq

/-- `ReplicaRole`. -/
inductive ReplicaRole
  | leader
  | follower
  | observer
deriving Repr, DecidableEq

/-- What `ReplicatedDB::Write` does: return a status, ok or not, or throw a
`ReturnCode`. -/
inductive WriteOutcome
  | status (ok : Bool)
  | throws (rc : ReturnCode)
deriving Repr, DecidableEq

/-- The `try` block of `write`. -/
def writeCode : WriteOutcome → ReturnCode
  | .status ok => if ok then .ok else .writeError
  | .throws rc => rc

/-- A call of the replicator. `out` is `replicated_db`: `none` for a null
pointer, else the value it points to when the call starts. -/
inductive Call
  | addDB (dbName : String) (role : ReplicaRole) (out : Option (Option Nat))
  | removeDB (dbName : String)
  | write (dbName : String)
deriving Repr, DecidableEq

/-- `replicated_db` when the call starts. -/
def Call.out : Call → Option (Option Nat)
  | .addDB _ _ out => out
  | _ => none

/-- Where a thread is in its call: not started, holding its local `shared_ptr`
(`new_db` after `db_map_.add`, `db` after `remove` or `get`), past
`pullFromUpstream`, polling `weak_db`, or returned. -/
inductive Pc
  | start
  | holding
  | pulled
  | waiting
  | returned (rc : ReturnCode)
deriving Repr, DecidableEq

/-- A thread: its call, where it is, the ReplicatedDB its local pointer names,
and `replicated_db`. -/
structure Thread where
  call : Call
  pc : Pc
  db : Option Nat
  out : Option (Option Nat)
deriving Repr, DecidableEq

/-- The thread holds a `shared_ptr` to `d`. -/
def Thread.Holds (th : Thread) (d : Nat) : Prop :=
  (th.pc = .holding ∨ th.pc = .pulled) ∧ th.db = some d

/-- A constructed ReplicatedDB: its name and role, and the thread whose `addDB`
constructed it. -/
structure ReplicatedDB where
  name : String
  role : ReplicaRole
  creator : Nat
deriving Repr, DecidableEq

/-- `db_map_`: the ReplicatedDB published under each name. -/
abbrev DbMap := String → Option Nat

/-- `db_map_.add(name, db)`: insert if absent; `none` when the name is taken. -/
def DbMap.add (m : DbMap) (name : String) (db : Nat) : Option DbMap :=
  match m name with
  | none => some (Function.update m name (some db))
  | some _ => none

/-- `db_map_.remove(name, &db)`: the entry, and the map without it. -/
def DbMap.remove (m : DbMap) (name : String) : Option (Nat × DbMap) :=
  (m name).map fun db => (db, Function.update m name none)

/-- `db_map_.get(name, &db)`. -/
def DbMap.get (m : DbMap) (name : String) : Option Nat := m name

/-- The replicator and its calls. `dbs` are the ReplicatedDBs constructed so far,
by address; `pulls`, `cleaner` and `writes` log the calls of
`pullFromUpstream`, `cleaner_.addDB` and `ReplicatedDB::Write` (with the calling
thread and the answer); `extRefs` counts the references held outside the calls;
`hist` is the ghost history of effects, newest first. -/
structure World where
  dbMap : DbMap
  dbs : List ReplicatedDB
  pulls : List Nat
  cleaner : List Nat
  writes : List (Nat × Nat × WriteOutcome)
  extRefs : Nat → Nat
  threads : List Thread
  hist : List (Nat × Effect)

/-- A fresh replicator: `db_map_` empty, no call made. -/
def World.init : World := ⟨fun _ => none, [], [], [], [], fun _ => 0, [], []⟩

/-- Some `shared_ptr` to `d` is left: `weak_db.expired()` is false. -/
def World.Held (w : World) (d : Nat) : Prop :=
  (∃ n, w.dbMap n = some d) ∨ (∃ th ∈ w.threads, th.Holds d) ∨ 0 < w.extRefs d

/-- Thread `i` moves to state `th`. -/
def World.setThread (w : World) (i : Nat) (th : Thread) : World :=
  { w with threads := w.threads.set i th }

/-- `pullFromUpstream` runs for a follower or an observer. -/
def pullsFor (role : ReplicaRole) : Bool := role = .follower || role = .observer

/-- One statement of thread `i`, in state `th`; `o` is the answer of
`ReplicatedDB::Write` when the statement calls it. `none` where the thread has
no statement to run (it has returned, or it is polling `weak_db`, which
`Step.expired` runs). -/
def World.exec (w : World) (i : Nat) (th : Thread) (o : WriteOutcome) : Option World :=
  match th.call, th.pc with
  | .addDB n r _, .start =>
    let d := w.dbs.length
    let w : World := { w with dbs := w.dbs ++ [{ name := n, role := r, creator := i }] }
    match DbMap.add w.dbMap n d with
    | some m => some ({ w with dbMap := m, hist := (i, .add n d true) :: w.hist }.setThread i
        { th with pc := .holding, db := some d, out := th.out.map fun _ => some d })
    | none => some ({ w with hist := (i, .add n d false) :: w.hist }.setThread i
        { th with pc := .returned .dbPreExist, db := some d })
  | .addDB _ r _, .holding => th.db.map fun d =>
    { w with pulls := if pullsFor r then w.pulls ++ [d] else w.pulls }.setThread i
      { th with pc := .pulled }
  | .addDB .., .pulled => th.db.map fun d =>
    { w with cleaner := w.cleaner ++ [d] }.setThread i { th with pc := .returned .ok }
  | .removeDB n, .start =>
    match DbMap.remove w.dbMap n with
    | some (d, m) => some ({ w with dbMap := m, hist := (i, .remove n (some d)) :: w.hist }.setThread
        i { th with pc := .holding, db := some d })
    | none => some ({ w with hist := (i, .remove n none) :: w.hist }.setThread i
        { th with pc := .returned .dbNotFound })
  | .removeDB _, .holding => some (w.setThread i { th with pc := .waiting })
  | .write n, .start =>
    match DbMap.get w.dbMap n with
    | some d => some ({ w with hist := (i, .get n (some d)) :: w.hist }.setThread i
        { th with pc := .holding, db := some d })
    | none => some ({ w with hist := (i, .get n none) :: w.hist }.setThread i
        { th with pc := .returned .dbNotFound })
  | .write _, .holding => th.db.map fun d =>
    { w with writes := w.writes ++ [(i, d, o)] }.setThread i { th with pc := .returned (writeCode o) }
  | _, _ => none

/-- A step of the replicator: a client starts a call on a new thread; a thread
runs a statement; a `removeDB` polling `weak_db` finds it expired and returns;
or a holder outside the calls takes a reference from a live one or drops one. -/
inductive Step (w : World) : World → Prop
  | call (c : Call) : Step w { w with threads := w.threads ++ [⟨c, .start, none, c.out⟩] }
  | exec (i : Nat) (th : Thread) (o : WriteOutcome) (w' : World) :
      w.threads[i]? = some th → w.exec i th o = some w' → Step w w'
  | expired (i : Nat) (th : Thread) (n : String) (d : Nat) :
      w.threads[i]? = some th → th.call = .removeDB n → th.pc = .waiting → th.db = some d →
      ¬ w.Held d → Step w (w.setThread i { th with pc := .returned .ok })
  | acquire (d : Nat) :
      w.Held d → Step w { w with extRefs := Function.update w.extRefs d (w.extRefs d + 1) }
  | release (d : Nat) :
      0 < w.extRefs d → Step w { w with extRefs := Function.update w.extRefs d (w.extRefs d - 1) }

/-- The worlds some interleaving of calls reaches. -/
def Reachable (w : World) : Prop := Relation.ReflTransGen Step World.init w

@[simp] theorem setThread_dbMap (w : World) (i : Nat) (th : Thread) :
    (w.setThread i th).dbMap = w.dbMap := rfl

@[simp] theorem setThread_threads (w : World) (i : Nat) (th : Thread) :
    (w.setThread i th).threads = w.threads.set i th := rfl

section SetThread

variable (w : World) (i : Nat) (th : Thread)

@[simp] theorem setThread_dbs : (w.setThread i th).dbs = w.dbs := rfl
@[simp] theorem setThread_pulls : (w.setThread i th).pulls = w.pulls := rfl
@[simp] theorem setThread_cleaner : (w.setThread i th).cleaner = w.cleaner := rfl
@[simp] theorem setThread_writes : (w.setThread i th).writes = w.writes := rfl
@[simp] theorem setThread_extRefs : (w.setThread i th).extRefs = w.extRefs := rfl
@[simp] theorem setThread_hist : (w.setThread i th).hist = w.hist := rfl

end SetThread

end Replicator

end Rocksplicator
