import Rocksplicator.Replicator.World

/-!
# What one step of the replicator can do

Every argument about whole runs reads a statement through `exec_shape`, which
says once what any statement of any call can change: the history gains at most
the thread's own effect, the thread moves on within its call, `db_map_` gains
at most the ReplicatedDB the statement constructs, the thread afterwards holds
only what it held, what it found in `db_map_` or what it constructed, and the
logs gain calls only on what the thread holds.

* `exec_shape`: **what one statement can do** (`StmtShape`).
* `step_held`: a step gives a reference only to a live ReplicatedDB or to one it
  constructs; `step_callsOn`: it calls only a ReplicatedDB some thread holds.
-/

namespace Rocksplicator

namespace Replicator

/-- The statements a thread at `pc` has left before it returns, counting the
end of `removeDB`'s wait. -/
def Pc.rank : Pc → Nat
  | .start => 4
  | .holding => 3
  | .pulled => 2
  | .waiting => 1
  | .returned _ => 0

/-- The calls the logs record on `d`: its `ReplicatedDB::Write` calls, with
their threads and answers, and how often it went to `pullFromUpstream` and to
`cleaner_.addDB`. -/
def World.callsOn (w : World) (d : Nat) : List (Nat × Nat × WriteOutcome) × Nat × Nat :=
  (w.writes.filter fun x => x.2.1 = d, w.pulls.count d, w.cleaner.count d)

/-- What a statement of thread `i`, in state `th`, leaves, `th'` being the
thread's state after it and `o` the answer `ReplicatedDB::Write` would give. -/
structure StmtShape (w w' : World) (i : Nat) (th th' : Thread) (o : WriteOutcome) : Prop where
  hist : ∃ new, w'.hist = new ++ w.hist
  threads : w'.threads = w.threads.set i th'
  call : th'.call = th.call
  rank : th'.pc.rank < th.pc.rank
  dbs : w.dbs <+: w'.dbs
  extRefs : w'.extRefs = w.extRefs
  dbMap : ∀ n d, w'.dbMap n = some d → w.dbMap n = some d ∨ w.dbs.length ≤ d ∧ d < w'.dbs.length
  holds : ∀ d, th'.Holds d →
    th.Holds d ∨ (∃ n, w.dbMap n = some d) ∨ w.dbs.length ≤ d ∧ d < w'.dbs.length
  calls : ∀ d, ¬ th.Holds d → w'.callsOn d = w.callsOn d
  writes : w'.writes = w.writes ∨ ∃ n d, th.call = .write n ∧ th.pc = .holding ∧ th.db = some d ∧
    th'.pc = .returned (writeCode o) ∧ th'.db = some d ∧ w'.writes = w.writes ++ [(i, d, o)]

section Steps

variable {w w' : World} {i : Nat} {th : Thread} {o : WriteOutcome}

/-- **What one statement can do**, by call and position. -/
theorem exec_shape (h : w.exec i th o = some w') : ∃ th', StmtShape w w' i th th' o := by
  obtain ⟨c, pc, db, out⟩ := th
  cases c <;> cases pc <;>
    simp only [World.exec, Option.map_eq_some', Option.some.injEq, reduceCtorEq] at h
  case addDB.start n r out' =>
    cases hn : w.dbMap n <;> simp only [DbMap.add, hn, Option.some.injEq] at h <;> subst h
    · -- `db_map_.add` went in: `new_db` is the ReplicatedDB just constructed
      refine ⟨_, ⟨[_], rfl⟩, rfl, rfl, by simp [Pc.rank], List.prefix_append _ _, rfl,
        fun n' d h => ?_, fun d h => .inr (.inr ?_), fun _ _ => rfl, .inl rfl⟩
      · simp only [setThread_dbMap, Function.update_apply] at h
        split_ifs at h
        · obtain rfl := Option.some.inj h; exact .inr (by simp)
        · exact .inl h
      · obtain rfl := Option.some.inj h.2; simp
    · exact ⟨_, ⟨[_], rfl⟩, rfl, rfl, by simp [Pc.rank], List.prefix_append _ _, rfl,
        fun _ _ h => .inl h, fun _ h => absurd h (by simp [Thread.Holds]), fun _ _ => rfl, .inl rfl⟩
  case addDB.holding =>
    obtain ⟨d, rfl, rfl⟩ := h
    refine ⟨_, ⟨[], rfl⟩, rfl, rfl, by simp [Pc.rank], List.prefix_refl _, rfl, fun _ _ h => .inl h,
      fun _ h => .inl ⟨.inl rfl, h.2⟩, fun d' hd => ?_, .inl rfl⟩
    have hne : d ≠ d' := fun h => hd ⟨.inl rfl, h ▸ rfl⟩
    simp only [World.callsOn, setThread_writes, setThread_pulls, setThread_cleaner]
    split_ifs <;> simp [List.count_singleton', hne]
  case addDB.pulled =>
    obtain ⟨d, rfl, rfl⟩ := h
    refine ⟨_, ⟨[], rfl⟩, rfl, rfl, by simp [Pc.rank], List.prefix_refl _, rfl, fun _ _ h => .inl h,
      fun _ h => absurd h (by simp [Thread.Holds]), fun d' hd => ?_, .inl rfl⟩
    have hne : d ≠ d' := fun h => hd ⟨.inr rfl, h ▸ rfl⟩
    simp [World.callsOn, List.count_singleton', hne]
  case removeDB.start n =>
    cases hn : w.dbMap n <;> simp only [DbMap.remove, hn, Option.map_some', Option.map_none',
      Option.some.injEq] at h <;> subst h
    · exact ⟨_, ⟨[_], rfl⟩, rfl, rfl, by simp [Pc.rank], List.prefix_refl _, rfl,
        fun _ _ h => .inl h, fun _ h => absurd h (by simp [Thread.Holds]), fun _ _ => rfl, .inl rfl⟩
    · -- `db_map_.remove` found the entry: `db` holds it
      refine ⟨_, ⟨[_], rfl⟩, rfl, rfl, by simp [Pc.rank], List.prefix_refl _, rfl,
        fun n' d h => ?_, fun d h => .inr (.inl ⟨n, hn.trans h.2⟩), fun _ _ => rfl, .inl rfl⟩
      simp only [setThread_dbMap, Function.update_apply] at h
      split_ifs at h
      exact .inl h
  case removeDB.holding =>
    subst h
    exact ⟨_, ⟨[], rfl⟩, rfl, rfl, by simp [Pc.rank], List.prefix_refl _, rfl,
      fun _ _ h => .inl h, fun _ h => absurd h (by simp [Thread.Holds]), fun _ _ => rfl, .inl rfl⟩
  case write.start n =>
    cases hn : w.dbMap n <;> simp only [DbMap.get, hn, Option.some.injEq] at h <;> subst h
    · exact ⟨_, ⟨[_], rfl⟩, rfl, rfl, by simp [Pc.rank], List.prefix_refl _, rfl,
        fun _ _ h => .inl h, fun _ h => absurd h (by simp [Thread.Holds]), fun _ _ => rfl, .inl rfl⟩
    · exact ⟨_, ⟨[_], rfl⟩, rfl, rfl, by simp [Pc.rank], List.prefix_refl _, rfl,
        fun _ _ h => .inl h, fun d h => .inr (.inl ⟨n, hn.trans h.2⟩), fun _ _ => rfl, .inl rfl⟩
  case write.holding n =>
    obtain ⟨d, rfl, rfl⟩ := h
    refine ⟨_, ⟨[], rfl⟩, rfl, rfl, by simp [Pc.rank], List.prefix_refl _, rfl, fun _ _ h => .inl h,
      fun _ h => absurd h (by simp [Thread.Holds]), fun d' hd => ?_,
      .inr ⟨n, d, rfl, rfl, rfl, rfl, rfl, rfl⟩⟩
    have hne : d ≠ d' := fun h => hd ⟨.inl rfl, h ▸ rfl⟩
    simp [World.callsOn, hne]

/-- A step constructs ReplicatedDBs only at the end of `dbs`. -/
theorem step_dbs (h : Step w w') : w.dbs <+: w'.dbs := by
  cases h with
  | exec _ _ _ _ _ h => obtain ⟨_, hs⟩ := exec_shape h; exact hs.dbs
  | _ => exact List.prefix_refl _

/-- **A step gives a reference only to a live ReplicatedDB, or to the one it
constructs.** -/
theorem step_held {d : Nat} (h : Step w w') (hd : w'.Held d) :
    w.Held d ∨ w.dbs.length ≤ d ∧ d < w'.dbs.length := by
  cases h with
  | call c =>
    rcases hd with hm | ⟨t, ht, hh⟩ | he
    · exact .inl (.inl hm)
    · rcases List.mem_append.1 ht with ht | ht
      · exact .inl (.inr (.inl ⟨t, ht, hh⟩))
      · rw [List.mem_singleton.1 ht] at hh; simp [Thread.Holds] at hh
    · exact .inl (.inr (.inr he))
  | exec j th o w' hth h =>
    obtain ⟨th', hs⟩ := exec_shape h
    rcases hd with ⟨n, hm⟩ | ⟨t, ht, hh⟩ | he
    · exact (hs.dbMap n d hm).imp_left fun hm => .inl ⟨n, hm⟩
    · rw [hs.threads] at ht
      rcases List.mem_or_eq_of_mem_set ht with ht | rfl
      · exact .inl (.inr (.inl ⟨t, ht, hh⟩))
      · rcases hs.holds d hh with hh | hm | hn
        · exact .inl (.inr (.inl ⟨th, List.mem_iff_getElem?.2 ⟨_, hth⟩, hh⟩))
        · exact .inl (.inl hm)
        · exact .inr hn
    · exact .inl (.inr (.inr (hs.extRefs ▸ he)))
  | expired j th n d' hth =>
    rcases hd with hm | ⟨t, ht, hh⟩ | he
    · exact .inl (.inl hm)
    · rcases List.mem_or_eq_of_mem_set ht with ht | rfl
      · exact .inl (.inr (.inl ⟨t, ht, hh⟩))
      · simp [Thread.Holds] at hh
    · exact .inl (.inr (.inr he))
  | acquire d' hd' =>
    rcases hd with hm | ht | he
    · exact .inl (.inl hm)
    · exact .inl (.inr (.inl ht))
    · dsimp only at he
      rw [Function.update_apply] at he
      split_ifs at he with hdd
      · exact .inl (hdd ▸ hd')
      · exact .inl (.inr (.inr he))
  | release d' hd' =>
    rcases hd with hm | ht | he
    · exact .inl (.inl hm)
    · exact .inl (.inr (.inl ht))
    · dsimp only at he
      rw [Function.update_apply] at he
      split_ifs at he with hdd
      · exact .inl (.inr (.inr (hdd ▸ hd')))
      · exact .inl (.inr (.inr he))

/-- **A step calls `Write`, `pullFromUpstream` or `cleaner_.addDB` only on a
ReplicatedDB some thread holds.** -/
theorem step_callsOn {d : Nat} (h : Step w w') (hd : ∀ th ∈ w.threads, ¬ th.Holds d) :
    w'.callsOn d = w.callsOn d := by
  cases h with
  | exec _ th _ _ hth h =>
    obtain ⟨_, hs⟩ := exec_shape h
    exact hs.calls d (hd th (List.mem_iff_getElem?.2 ⟨_, hth⟩))
  | _ => rfl

end Steps

end Replicator

end Rocksplicator
