import Rocksplicator.Replicator.Contract
import Rocksplicator.Replicator.Statement

/-!
# What `db_map_` holds, and what leaves it

The registry contract places each call's effect at one point of the history.
Read together with the threads' clauses, the history settles which ReplicatedDB
each entry of `db_map_` can be and what becomes of one that `removeDB` takes
out, over every reachable state.

* `ThreadOK.effect`: a thread past its `db_map_` operation has taken the effect
  its call and local pointer say (`EffectOf`).
* `dbMap_entries`: **every entry of `db_map_` is the ReplicatedDB a successful
  `addDB` constructed for that name**, so no two names share one.
* `Inv.unregistered_after_remove`: once removed, a ReplicatedDB is registered
  under no name at any later point of the history.
* `removed_not_republished`: **a ReplicatedDB that `removeDB` took out of
  `db_map_` is never in it again.**
* `removed_once`: **no ReplicatedDB is removed twice**: one `removeDB` at most
  holds it, waits for it and returns `OK` for it.
-/

namespace Rocksplicator

namespace Replicator

/-- The effect thread `i`'s call and local pointer say it took: an `add` of the
ReplicatedDB it constructed under its name, with the call on its success path
when the `add` went in; or the `remove` or `get` of the entry its `db` holds. -/
def EffectOf (w : World) (i : Nat) (th : Thread) : Effect → Prop
  | .add n d ok => (∃ r out, th.call = .addDB n r out ∧ w.dbs[d]? = some ⟨n, r, i⟩) ∧
      th.db = some d ∧ (ok = true → th.pc = .holding ∨ th.pc = .pulled ∨ th.pc = .returned .ok)
  | .remove n db => th.call = .removeDB n ∧ db = th.db
  | .get n db => th.call = .write n ∧ db = th.db

section Effects

variable {w : World} {i : Nat} {th : Thread}

/-- **A thread past its `db_map_` operation has taken its effect**, the one its
call and local pointer say. -/
theorem ThreadOK.effect (h : ThreadOK w i th) (hpc : th.pc ≠ .start) :
    ∃ e, (i, e) ∈ w.hist ∧ EffectOf w i th e := by
  obtain ⟨c, pc, db, out⟩ := th
  -- the clause of an `addDB` past `db_map_.add` names its effect
  have hadd : ∀ {n r out' ok p c'}, c = .addDB n r out' → (ok = true → pc = .holding ∨
      pc = .pulled ∨ pc = .returned .ok) → AddOK w i n r out' ⟨c, pc, db, out⟩ ok p c' →
      ∃ e, (i, e) ∈ w.hist ∧ EffectOf w i ⟨c, pc, db, out⟩ e := by
    rintro n r out' ok p c' rfl hok ⟨d, hd, hrec, hh, -⟩
    exact ⟨_, hh, ⟨r, out', rfl, hrec⟩, hd, hok⟩
  cases pc with
  | start => exact absurd rfl hpc
  | holding =>
    cases c with
    | addDB => exact hadd rfl (fun _ => .inl rfl) h
    | removeDB => obtain ⟨d, hd, -, hh, -⟩ := h; exact ⟨_, hh, rfl, hd.symm⟩
    | write => obtain ⟨d, hd, -, hh⟩ := h; exact ⟨_, hh, rfl, hd.symm⟩
  | pulled =>
    cases c with
    | addDB => exact hadd rfl (fun _ => .inr (.inl rfl)) h
    | _ => exact h.elim
  | waiting =>
    cases c with
    | removeDB => obtain ⟨d, hd, -, hh, -⟩ := h; exact ⟨_, hh, rfl, hd.symm⟩
    | _ => exact h.elim
  | returned rc =>
    cases c with
    | addDB =>
      rcases h with ⟨rfl, h⟩ | ⟨rfl, h⟩
      · exact hadd rfl (fun _ => .inr (.inr rfl)) h
      · exact hadd rfl (fun h => absurd h (by simp)) h
    | removeDB =>
      rcases h with ⟨-, d, hd, -, hh, -⟩ | ⟨-, hd, hh⟩ <;> exact ⟨_, hh, rfl, hd.symm⟩
    | write =>
      rcases h with ⟨-, hd, hh⟩ | ⟨d, o, ⟨hd, -, hh⟩, -⟩ <;> exact ⟨_, hh, rfl, hd.symm⟩

variable (hw : Inv w)
include hw

/-- A thread takes at most one effect. -/
theorem Inv.effect_unique {k : Nat} {e e' : Effect} (h : (k, e) ∈ w.hist)
    (h' : (k, e') ∈ w.hist) : e = e' :=
  (Prod.mk.inj (List.inj_on_of_nodup_map hw.once h h' rfl)).2

/-- The effects in the history are those their threads' clauses say. -/
theorem Inv.effectOf {k : Nat} {e : Effect} (h : (k, e) ∈ w.hist) :
    ∃ th, w.threads[k]? = some th ∧ EffectOf w k th e := by
  obtain ⟨th, hth⟩ : ∃ th, w.threads[k]? = some th :=
    ⟨_, List.getElem?_eq_getElem (hw.hist_lt _ h)⟩
  have hok := hw.threads_ok k th hth
  -- a thread that has not started has no effect
  have hpc : th.pc ≠ .start := fun hpc => (hok.start hpc).2.2 e h
  obtain ⟨e', he', hof⟩ := hok.effect hpc
  exact ⟨th, hth, hw.effect_unique he' h ▸ hof⟩

/-- The `addDB` behind an `add` effect: its thread, whose `new_db` is the
ReplicatedDB it constructed under the effect's name; when the `add` went in,
the thread is on its success path. -/
theorem Inv.add_thread {k : Nat} {n : String} {d : Nat} {ok : Bool}
    (h : (k, .add n d ok) ∈ w.hist) :
    ∃ th r out, w.threads[k]? = some th ∧ th.call = .addDB n r out ∧ th.db = some d ∧
      w.dbs[d]? = some ⟨n, r, k⟩ ∧
      (ok = true → th.pc = .holding ∨ th.pc = .pulled ∨ th.pc = .returned .ok) := by
  obtain ⟨th, hth, ⟨r, out, hc, hrec⟩, hdb, hpc⟩ := hw.effectOf h
  exact ⟨th, r, out, hth, hc, hdb, hrec, hpc⟩

/-- A `removeDB` whose local `db` names `d` took `d` out of `db_map_`. -/
theorem Inv.removed_mem {th : Thread} {n : String} {d : Nat}
    (hth : w.threads[i]? = some th) (hc : th.call = .removeDB n) (hdb : th.db = some d) :
    (i, .remove n (some d)) ∈ w.hist := by
  have hok := hw.threads_ok i th hth
  have hpc : th.pc ≠ .start := fun hpc => by simp [(hok.start hpc).1] at hdb
  obtain ⟨e, he, hof⟩ := hok.effect hpc
  cases e with
  | add => obtain ⟨⟨_, _, hc', -⟩, -⟩ := hof; rw [hc] at hc'; cases hc'
  | remove n' db => obtain ⟨hc', rfl⟩ := hof; rw [hc] at hc'; cases hc'; rwa [hdb] at he
  | get => obtain ⟨hc', -⟩ := hof; rw [hc] at hc'; cases hc'

/-- Two `add` effects of one ReplicatedDB are one thread's, under one name. -/
theorem Inv.add_same_db {k k' : Nat} {n n' : String} {d : Nat} {ok ok' : Bool}
    (h : (k, .add n d ok) ∈ w.hist) (h' : (k', .add n' d ok') ∈ w.hist) : n = n' ∧ k = k' := by
  obtain ⟨_, _, _, -, -, -, hrec, -⟩ := hw.add_thread h
  obtain ⟨_, _, _, -, -, -, hrec', -⟩ := hw.add_thread h'
  obtain ⟨hn, -, hk⟩ := ReplicatedDB.mk.inj (Option.some.inj (hrec.symm.trans hrec'))
  exact ⟨hn, hk⟩

end Effects

/-- A thread's effect sits at one point of the history only. -/
theorem not_mem_both {h₁ h₂ : List (Nat × Effect)} {p : Nat × Effect}
    (hn : ((h₂ ++ p :: h₁).map Prod.fst).Nodup) {k : Nat} {e e' : Effect} (h₂' : (k, e) ∈ h₂)
    (h₁' : (k, e') ∈ h₁) : False := by
  rw [List.map_append, List.nodup_append] at hn
  have hk₂ : k ∈ h₂.map Prod.fst := List.mem_map_of_mem Prod.fst h₂'
  have hk₁ : k ∈ (p :: h₁).map Prod.fst := List.mem_map_of_mem Prod.fst (List.mem_cons_of_mem p h₁')
  exact hn.2.2 hk₂ hk₁

variable {w : World}

/-- **Every entry of `db_map_` is the ReplicatedDB a successful `addDB`
constructed for that name**, in every reachable state: the call's thread names
it in `new_db` and is past `db_map_.add` on its success path. So no two names
share a ReplicatedDB. -/
theorem dbMap_entries (h : Reachable w) :
    (∀ n d, w.dbMap n = some d → ∃ k th r out, w.threads[k]? = some th ∧
      th.call = .addDB n r out ∧ th.db = some d ∧ w.dbs[d]? = some ⟨n, r, k⟩ ∧
      (th.pc = .holding ∨ th.pc = .pulled ∨ th.pc = .returned .ok)) ∧
    ∀ n n' d, w.dbMap n = some d → w.dbMap n' = some d → n = n' := by
  have hw := inv_reachable h
  have hadd : ∀ n d, w.dbMap n = some d → ∃ k, (k, .add n d true) ∈ w.hist :=
    fun n d hn => registered_mem ((hw.registry n).symm.trans hn)
  refine ⟨fun n d hn => ?_, fun n n' d hn hn' => ?_⟩
  · obtain ⟨k, hk⟩ := hadd n d hn
    obtain ⟨th, r, out, hth, hc, hdb, hrec, hpc⟩ := hw.add_thread hk
    exact ⟨k, th, r, out, hth, hc, hdb, hrec, hpc rfl⟩
  · obtain ⟨k, hk⟩ := hadd n d hn
    obtain ⟨k', hk'⟩ := hadd n' d hn'
    exact (hw.add_same_db hk hk').1

/-- After one `addDB("a")` as a leader, `db_map_` holds `a`'s ReplicatedDB. -/
theorem dbMap_entries_add_leader :
    let w : World :=
      ⟨Function.update (fun _ => none) "a" (some 0), [⟨"a", .leader, 0⟩], [], [0], [], fun _ => 0,
        [⟨.addDB "a" .leader none, .returned .ok, some 0, none⟩], [(0, .add "a" 0 true)]⟩
    Reachable w ∧
    (∀ n d, w.dbMap n = some d → ∃ k th r out, w.threads[k]? = some th ∧
      th.call = .addDB n r out ∧ th.db = some d ∧ w.dbs[d]? = some ⟨n, r, k⟩ ∧
      (th.pc = .holding ∨ th.pc = .pulled ∨ th.pc = .returned .ok)) ∧
    ∀ n n' d, w.dbMap n = some d → w.dbMap n' = some d → n = n' :=
  have h : Reachable _ :=
    .tail (.tail (.tail (.tail .refl (.call (.addDB "a" .leader none)))
      (.exec 0 _ (.status true) _ rfl rfl)) (.exec 0 _ (.status true) _ rfl rfl))
      (.exec 0 _ (.status true) _ rfl rfl)
  ⟨h, dbMap_entries h⟩

/-- The older part of a legal history is legal. -/
theorem Legal.of_append : ∀ {a c : List (Nat × Effect)}, Legal (a ++ c) → Legal c
  | [], _, h => h
  | (_, _) :: a, _, h => Legal.of_append (a := a) h.2

/-- An effect of a legal history agrees with the registry before it. -/
theorem Legal.agrees_of_append {a c : List (Nat × Effect)} {i : Nat} {e : Effect}
    (h : Legal (a ++ (i, e) :: c)) : Agrees (registered c) e :=
  (legal_cons.1 (Legal.of_append h)).1

/-- Under the invariant, once a ReplicatedDB has been removed, every later point
of the history registers it under no name. -/
theorem Inv.unregistered_after_remove (hw : Inv w) {i : Nat} {n : String} {d : Nat}
    {h₀ h₁ : List (Nat × Effect)} (hs : w.hist = h₀ ++ h₁)
    (hrm : (i, .remove n (some d)) ∈ h₁) (n' : String) : registered h₁ n' ≠ some d := by
  intro hn'
  obtain ⟨t₂, t₁, rfl⟩ := List.append_of_mem hrm
  have hs' : w.hist = (h₀ ++ t₂) ++ (i, .remove n (some d)) :: t₁ := by
    rw [hs, List.append_assoc]
  -- `d` was registered under `n` when it was removed
  have hagree : some d = registered t₁ n :=
    Legal.agrees_of_append (c := t₁) (e := .remove n (some d)) (hs' ▸ hw.legal)
  obtain ⟨k, hk⟩ := registered_mem hagree.symm
  have hmem : ∀ {p}, p ∈ t₁ → p ∈ w.hist := fun hp => by simp [hs', hp]
  rcases registered_after_remove hn' with ⟨hne, hr⟩ | ⟨k', hk'⟩
  · -- registered under `n'` as well before the removal: the names agree
    obtain ⟨k'', hk''⟩ := registered_mem hr
    exact hne (hw.add_same_db (hmem hk) (hmem hk'')).1.symm
  · -- added again after the removal: by the thread that added it first
    have hk₂ : (k', Effect.add n' d true) ∈ w.hist := by simp [hs', hk']
    obtain ⟨-, rfl⟩ := hw.add_same_db (hmem hk) hk₂
    exact not_mem_both (hs' ▸ hw.once) (List.mem_append_right _ hk') hk

/-- Under the invariant, a ReplicatedDB a `removeDB`'s local `db` names is under
no name of `db_map_`. -/
theorem Inv.removed_unmapped (hw : Inv w) {i : Nat} {th : Thread} {n : String} {d : Nat}
    (hth : w.threads[i]? = some th) (hc : th.call = .removeDB n) (hdb : th.db = some d)
    (n' : String) : w.dbMap n' ≠ some d := by
  rw [hw.registry n']
  exact hw.unregistered_after_remove (List.nil_append _).symm (hw.removed_mem hth hc hdb) n'

/-- Under the invariant, no removal of a ReplicatedDB precedes another. -/
theorem Inv.remove_not_before (hw : Inv w) {i j : Nat} {n n' : String} {d : Nat}
    {a c : List (Nat × Effect)} (hs : w.hist = a ++ (j, .remove n' (some d)) :: c)
    (hi : (i, .remove n (some d)) ∈ c) : False :=
  hw.unregistered_after_remove (show w.hist = (a ++ [(j, .remove n' (some d))]) ++ c by simp [hs])
    hi n' (Legal.agrees_of_append (c := c) (e := .remove n' (some d)) (hs ▸ hw.legal)).symm

/-- **A ReplicatedDB that `removeDB` took out of `db_map_` is never in it
again**: in every reachable state, while a `removeDB` holds it, waits on it or
has returned after removing it, no name maps to it. -/
theorem removed_not_republished (h : Reachable w) {i : Nat} {th : Thread} {n : String}
    {d : Nat} (hth : w.threads[i]? = some th) (hc : th.call = .removeDB n)
    (hdb : th.db = some d) (n' : String) : w.dbMap n' ≠ some d :=
  (inv_reachable h).removed_unmapped hth hc hdb n'

/-- `addDB("a")`, then `removeDB("a")` past `db_map_.remove`: `a`'s ReplicatedDB is
in `db_map_` under no name, `a` included. -/
theorem removed_not_republished_add_remove :
    let w : World :=
      ⟨Function.update (Function.update (fun _ => none) "a" (some 0)) "a" none,
        [⟨"a", .leader, 0⟩], [], [0], [], fun _ => 0,
        [⟨.addDB "a" .leader none, .returned .ok, some 0, none⟩, ⟨.removeDB "a", .holding, some 0, none⟩],
        [(1, .remove "a" (some 0)), (0, .add "a" 0 true)]⟩
    Reachable w ∧ w.threads[1]? = some ⟨.removeDB "a", .holding, some 0, none⟩ ∧
      w.dbMap "a" ≠ some 0 := by
  intro w
  have h : Reachable w :=
    .tail (.tail (.tail (.tail (.tail (.tail .refl (.call (.addDB "a" .leader none)))
      (.exec 0 _ (.status true) _ rfl rfl)) (.exec 0 _ (.status true) _ rfl rfl))
      (.exec 0 _ (.status true) _ rfl rfl)) (.call (.removeDB "a")))
      (.exec 1 _ (.status true) _ rfl rfl)
  have hth : w.threads[1]? = some ⟨.removeDB "a", .holding, some 0, none⟩ := rfl
  exact ⟨h, hth, removed_not_republished h hth rfl rfl "a"⟩

/-- **No ReplicatedDB is removed twice**: in every reachable state, two
`removeDB` calls whose local `db` names the same ReplicatedDB are one call. So at
most one `removeDB` waits for each ReplicatedDB and returns `OK` for it; another
`removeDB` of the same name gets `DB_NOT_FOUND` or a later ReplicatedDB. -/
theorem removed_once (h : Reachable w) {i j : Nat} {th th' : Thread} {n n' : String} {d : Nat}
    (hi : w.threads[i]? = some th) (hj : w.threads[j]? = some th')
    (hci : th.call = .removeDB n) (hcj : th'.call = .removeDB n') (hdi : th.db = some d)
    (hdj : th'.db = some d) : i = j := by
  have hw := inv_reachable h
  have hri := hw.removed_mem hi hci hdi
  obtain ⟨a, c, hs⟩ := List.append_of_mem (hw.removed_mem hj hcj hdj)
  rw [hs, List.mem_append, List.mem_cons] at hri
  rcases hri with hri | hri | hri
  · -- `i`'s removal is the later one
    obtain ⟨a₁, a₂, rfl⟩ := List.append_of_mem hri
    exact (hw.remove_not_before (i := j) (n := n') (a := a₁)
      (c := a₂ ++ (j, .remove n' (some d)) :: c) (by rw [hs, List.append_assoc, List.cons_append])
      (by simp)).elim
  · exact (Prod.mk.inj hri).1
  · exact (hw.remove_not_before hs hri).elim

/-- `removeDB("a")` past `db_map_.remove`, and a second `removeDB("a")` that found
nothing: the only call holding `a`'s ReplicatedDB is the first. -/
theorem removed_once_second_remove :
    let w : World :=
      ⟨Function.update (Function.update (fun _ => none) "a" (some 0)) "a" none,
        [⟨"a", .leader, 0⟩], [], [0], [], fun _ => 0,
        [⟨.addDB "a" .leader none, .returned .ok, some 0, none⟩,
          ⟨.removeDB "a", .holding, some 0, none⟩,
          ⟨.removeDB "a", .returned .dbNotFound, none, none⟩],
        [(2, .remove "a" none), (1, .remove "a" (some 0)), (0, .add "a" 0 true)]⟩
    Reachable w ∧ w.threads[1]? = some ⟨.removeDB "a", .holding, some 0, none⟩ ∧ 1 = 1 := by
  intro w
  have h : Reachable w :=
    .tail (.tail (.tail (.tail (.tail (.tail (.tail (.tail .refl (.call (.addDB "a" .leader none)))
      (.exec 0 _ (.status true) _ rfl rfl)) (.exec 0 _ (.status true) _ rfl rfl))
      (.exec 0 _ (.status true) _ rfl rfl)) (.call (.removeDB "a")))
      (.exec 1 _ (.status true) _ rfl rfl)) (.call (.removeDB "a")))
      (.exec 2 _ (.status true) _ rfl rfl)
  have hth : w.threads[1]? = some ⟨.removeDB "a", .holding, some 0, none⟩ := rfl
  exact ⟨h, hth, removed_once h hth hth rfl rfl rfl rfl⟩

end Replicator

end Rocksplicator
