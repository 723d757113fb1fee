import Rocksplicator.Replicator.Entries

/-!
# The lifetime of a ReplicatedDB, and the `Write` calls it receives

A ReplicatedDB lives while a `shared_ptr` to it does. Once the last one is gone
nothing gets one back: `db_map_` only gains the ReplicatedDB an `addDB` has just
constructed, a thread takes its pointer only from `db_map_` or to what it
constructs, and the holders outside the calls only copy a live one. And only a
holder calls `ReplicatedDB::Write`, `pullFromUpstream` or `cleaner_.addDB` on
it (`step_held`, `step_callsOn`).

* `dead_run`: along every run, a constructed ReplicatedDB with no reference left
  gets none back and sees no further call.
* `unbuilt_untouched`: in every reachable state, a ReplicatedDB not constructed
  yet has no reference and has seen no call.
* `removed_db_untouched`: **after `removeDB` returns `OK`, the ReplicatedDB it
  removed sees no further `Write`, `pullFromUpstream` or `cleaner_.addDB`.**
* `remove_ok_after_add_ok`: **`removeDB` returns `OK` only after the `addDB`
  that published the ReplicatedDB it removed has returned `OK`**, its
  `pullFromUpstream` and `cleaner_.addDB` calls done.
* `rejected_db_untouched`: **the ReplicatedDB an `addDB` constructs when
  `db_map_.add` fails is never reached, in any continuation.**
* `writes_once`: **every `write` call that found a ReplicatedDB and returned
  made exactly one `ReplicatedDB::Write` call, on that ReplicatedDB, and no
  other `Write` call is ever made.**
-/

namespace Rocksplicator

namespace Replicator

variable {w w' : World} {d : Nat}

/-- Along every run, a constructed ReplicatedDB with no reference left gets none
back and sees no further call. -/
theorem dead_run (hlt : d < w.dbs.length) (hd : ¬ w.Held d)
    (h : Relation.ReflTransGen Step w w') :
    d < w'.dbs.length ∧ ¬ w'.Held d ∧ w'.callsOn d = w.callsOn d := by
  induction h with
  | refl => exact ⟨hlt, hd, rfl⟩
  | tail _ hs ih =>
    obtain ⟨hlt', hd', hc⟩ := ih
    refine ⟨lt_of_lt_of_le hlt' (step_dbs hs).length_le, fun h' => ?_,
      (step_callsOn hs fun t ht hh => hd' (.inr (.inl ⟨t, ht, hh⟩))).trans hc⟩
    rcases step_held hs h' with h' | h'
    · exact hd' h'
    · omega

/-- In every reachable state, a ReplicatedDB not constructed yet has no
reference and has seen no call. -/
theorem unbuilt_untouched (h : Reachable w) (hd : w.dbs.length ≤ d) :
    ¬ w.Held d ∧ w.callsOn d = ([], 0, 0) := by
  induction h with
  | refl => exact ⟨by simp [World.Held, World.init], rfl⟩
  | tail _ hs ih =>
    have hle := (step_dbs hs).length_le
    obtain ⟨hd', hc⟩ := ih (le_trans hle hd)
    refine ⟨fun h' => ?_, (step_callsOn hs fun t ht hh => hd' (.inr (.inl ⟨t, ht, hh⟩))).trans hc⟩
    rcases step_held hs h' with h' | h'
    · exact hd' h'
    · omega

/-- **After `removeDB` returns `OK`, the ReplicatedDB it removed is gone for
good**: in every continuation of the run nothing holds it, no name of
`db_map_` maps to it, and it sees no further `Write`, `pullFromUpstream` or
`cleaner_.addDB` call. -/
theorem removed_db_untouched (h : Reachable w) {i : Nat} {th : Thread} {n : String}
    (hth : w.threads[i]? = some th) (hc : th.call = .removeDB n) (hpc : th.pc = .returned .ok)
    (hrun : Relation.ReflTransGen Step w w') :
    ∃ d, th.db = some d ∧ ¬ w'.Held d ∧ w'.callsOn d = w.callsOn d := by
  have hok := (inv_reachable h).threads_ok i th hth
  obtain ⟨c, pc, db, out⟩ := th
  dsimp only at hc hpc
  subst hc hpc
  rcases hok with ⟨-, d, hdb, hlt, -, hdead⟩ | ⟨hrc, -⟩
  · obtain ⟨-, hd, hcalls⟩ := dead_run hlt (hdead rfl) hrun
    exact ⟨d, hdb, hd, hcalls⟩
  · cases hrc

/-- `addDB("a")` returns, then `removeDB("a")` waits until `weak_db` expires and
returns `OK`; afterwards `a` is added again and written to: the new ReplicatedDB
gets the `Write`, the removed one nothing. -/
theorem removed_db_untouched_add_remove :
    let w : World :=
      ⟨Function.update (Function.update (fun _ => none) "a" (some 0)) "a" none,
        [⟨"a", .leader, 0⟩], [], [0], [], fun _ => 0,
        [⟨.addDB "a" .leader none, .returned .ok, some 0, none⟩,
          ⟨.removeDB "a", .returned .ok, some 0, none⟩],
        [(1, .remove "a" (some 0)), (0, .add "a" 0 true)]⟩
    let w' : World :=
      ⟨Function.update (Function.update (Function.update (fun _ => none) "a" (some 0)) "a" none)
          "a" (some 1),
        [⟨"a", .leader, 0⟩, ⟨"a", .leader, 2⟩], [], [0, 1], [(3, 1, .status true)], fun _ => 0,
        [⟨.addDB "a" .leader none, .returned .ok, some 0, none⟩,
          ⟨.removeDB "a", .returned .ok, some 0, none⟩,
          ⟨.addDB "a" .leader none, .returned .ok, some 1, none⟩,
          ⟨.write "a", .returned .ok, some 1, none⟩],
        [(3, .get "a" (some 1)), (2, .add "a" 1 true), (1, .remove "a" (some 0)),
          (0, .add "a" 0 true)]⟩
    Reachable w ∧ w.threads[1]? = some ⟨.removeDB "a", .returned .ok, some 0, none⟩ ∧
      Relation.ReflTransGen Step w w' ∧
      ∃ d, (⟨.removeDB "a", .returned .ok, some 0, none⟩ : Thread).db = some d ∧ ¬ w'.Held d ∧
        w'.callsOn d = w.callsOn d := by
  intro w w'
  let w₀ : World :=
    ⟨Function.update (Function.update (fun _ => none) "a" (some 0)) "a" none,
      [⟨"a", .leader, 0⟩], [], [0], [], fun _ => 0,
      [⟨.addDB "a" .leader none, .returned .ok, some 0, none⟩, ⟨.removeDB "a", .waiting, some 0, none⟩],
      [(1, .remove "a" (some 0)), (0, .add "a" 0 true)]⟩
  -- while `removeDB` polls, nothing holds `a`'s ReplicatedDB any more
  have hdead : ¬ w₀.Held 0 := by
    rintro (⟨n, hn⟩ | ⟨t, ht, hh⟩ | he)
    · by_cases hna : n = "a" <;> simp [w₀, Function.update_apply, hna] at hn
    · simp only [w₀, List.mem_cons, List.mem_singleton, List.not_mem_nil, or_false] at ht
      rcases ht with rfl | rfl <;> simp [Thread.Holds] at hh
    · exact lt_irrefl 0 he
  have h₀ : Reachable w₀ :=
    .tail (.tail (.tail (.tail (.tail (.tail (.tail .refl (.call (.addDB "a" .leader none)))
      (.exec 0 _ (.status true) _ rfl rfl)) (.exec 0 _ (.status true) _ rfl rfl))
      (.exec 0 _ (.status true) _ rfl rfl)) (.call (.removeDB "a")))
      (.exec 1 _ (.status true) _ rfl rfl)) (.exec 1 _ (.status true) _ rfl rfl)
  have h : Reachable w := .tail h₀ (Step.expired (w := w₀) 1 _ "a" 0 rfl rfl rfl rfl hdead)
  have hth : w.threads[1]? = some ⟨.removeDB "a", .returned .ok, some 0, none⟩ := rfl
  -- `a` is added again and written to
  have hrun : Relation.ReflTransGen Step w w' :=
    .tail (.tail (.tail (.tail (.tail (.tail (.tail .refl (.call (.addDB "a" .leader none)))
      (.exec 2 _ (.status true) _ rfl rfl)) (.exec 2 _ (.status true) _ rfl rfl))
      (.exec 2 _ (.status true) _ rfl rfl)) (.call (.write "a")))
      (.exec 3 _ (.status true) _ rfl rfl)) (.exec 3 _ (.status true) _ rfl rfl)
  exact ⟨h, hth, hrun, removed_db_untouched h hth rfl rfl hrun⟩

/-- The ReplicatedDB a `removeDB` took out of `db_map_` came in by a successful
`add`. -/
theorem Inv.removed_added (hw : Inv w) {i : Nat} {n : String} {d : Nat}
    (h : (i, .remove n (some d)) ∈ w.hist) : ∃ k, (k, .add n d true) ∈ w.hist := by
  obtain ⟨h₁, h₂, hsplit, hagree⟩ := hw.legal.split h
  obtain ⟨k, hk⟩ := registered_mem hagree.symm
  exact ⟨k, hsplit ▸ List.mem_append_right _ (List.mem_cons_of_mem _ hk)⟩

/-- **`removeDB` returns `OK` only after the `addDB` that published the
ReplicatedDB it removed has returned `OK`**, in every reachable state: that
call's `new_db` is one of the references `weak_db` waits out, so by then it has
called `pullFromUpstream` on the ReplicatedDB once for a follower or an
observer (never for a leader) and `cleaner_.addDB` once. -/
theorem remove_ok_after_add_ok (h : Reachable w) {i : Nat} {th : Thread} {n : String}
    (hth : w.threads[i]? = some th) (hc : th.call = .removeDB n) (hpc : th.pc = .returned .ok) :
    ∃ d k r out tk, th.db = some d ∧ w.dbs[d]? = some ⟨n, r, k⟩ ∧ w.threads[k]? = some tk ∧
      tk.call = .addDB n r out ∧ tk.db = some d ∧ tk.pc = .returned .ok ∧
      (r = .follower ∨ r = .observer → w.pulls.count d = 1) ∧ (r = .leader → d ∉ w.pulls) ∧
      w.cleaner.count d = 1 := by
  have hw := inv_reachable h
  have hok := hw.threads_ok i th hth
  obtain ⟨c, pc, db, out⟩ := th
  dsimp only at hc hpc
  subst hc hpc
  rcases hok with ⟨-, d, hdb, -, hrm, hdead⟩ | ⟨hrc, -⟩
  swap; · cases hrc
  obtain ⟨k, hk⟩ := hw.removed_added hrm
  obtain ⟨⟨ck, pck, dbk, outk⟩, r, out', htk, hck, hdbk, hrec, hpck⟩ := hw.add_thread hk
  dsimp only at hck hdbk hpck
  subst hck hdbk
  -- `weak_db` expired, so the `addDB` no longer holds `new_db`: it has returned
  have hheld : ∀ p, p = .holding ∨ p = .pulled → pck ≠ p := by
    rintro p hp rfl
    exact hdead rfl (.inr (.inl ⟨_, List.mem_iff_getElem?.2 ⟨_, htk⟩, hp, rfl⟩))
  have hret : pck = .returned .ok :=
    ((hpck rfl).resolve_left (hheld _ (.inl rfl))).resolve_left (hheld _ (.inr rfl))
  subst hret
  rcases hw.threads_ok k _ htk with ⟨-, d', hd', -, -, -, hp, hcl⟩ | ⟨hrc, -⟩
  · cases Option.some.inj hd'
    exact ⟨d, k, r, out', _, hdb, hrec, htk, rfl, rfl, rfl, (pulls_by_role hp).1,
      (pulls_by_role hp).2, hcl⟩
  · cases hrc

/-- `removeDB("a")` removes a follower's ReplicatedDB while its `addDB` still
holds it, waits, and returns after that `addDB` pulled it and handed it to the
cleaner. -/
theorem remove_ok_after_add_ok_follower :
    let w : World :=
      ⟨Function.update (Function.update (fun _ => none) "a" (some 0)) "a" none,
        [⟨"a", .follower, 0⟩], [0], [0], [], fun _ => 0,
        [⟨.addDB "a" .follower none, .returned .ok, some 0, none⟩,
          ⟨.removeDB "a", .returned .ok, some 0, none⟩],
        [(1, .remove "a" (some 0)), (0, .add "a" 0 true)]⟩
    Reachable w ∧ w.threads[1]? = some ⟨.removeDB "a", .returned .ok, some 0, none⟩ ∧
      ∃ d k r out tk, (⟨.removeDB "a", .returned .ok, some 0, none⟩ : Thread).db = some d ∧
        w.dbs[d]? = some ⟨"a", r, k⟩ ∧ w.threads[k]? = some tk ∧
        tk.call = .addDB "a" r out ∧ tk.db = some d ∧ tk.pc = .returned .ok ∧
        (r = .follower ∨ r = .observer → w.pulls.count d = 1) ∧ (r = .leader → d ∉ w.pulls) ∧
        w.cleaner.count d = 1 := by
  intro w
  let w₀ : World :=
    ⟨Function.update (Function.update (fun _ => none) "a" (some 0)) "a" none,
      [⟨"a", .follower, 0⟩], [0], [0], [], fun _ => 0,
      [⟨.addDB "a" .follower none, .returned .ok, some 0, none⟩,
        ⟨.removeDB "a", .waiting, some 0, none⟩],
      [(1, .remove "a" (some 0)), (0, .add "a" 0 true)]⟩
  -- once `addDB` has returned, nothing holds `a`'s ReplicatedDB
  have hdead : ¬ w₀.Held 0 := by
    rintro (⟨n, hn⟩ | ⟨t, ht, hh⟩ | he)
    · by_cases hna : n = "a" <;> simp [w₀, Function.update_apply, hna] at hn
    · simp only [w₀, List.mem_cons, List.mem_singleton, List.not_mem_nil, or_false] at ht
      rcases ht with rfl | rfl <;> simp [Thread.Holds] at hh
    · exact lt_irrefl 0 he
  -- `removeDB` runs in the window between `db_map_.add` and `pullFromUpstream`
  have h₀ : Reachable w₀ :=
    .tail (.tail (.tail (.tail (.tail (.tail (.tail .refl (.call (.addDB "a" .follower none)))
      (.exec 0 _ (.status true) _ rfl rfl)) (.call (.removeDB "a")))
      (.exec 1 _ (.status true) _ rfl rfl)) (.exec 1 _ (.status true) _ rfl rfl))
      (.exec 0 _ (.status true) _ rfl rfl)) (.exec 0 _ (.status true) _ rfl rfl)
  have h : Reachable w := .tail h₀ (Step.expired (w := w₀) 1 _ "a" 0 rfl rfl rfl rfl hdead)
  have hth : w.threads[1]? = some ⟨.removeDB "a", .returned .ok, some 0, none⟩ := rfl
  exact ⟨h, hth, remove_ok_after_add_ok h hth rfl rfl⟩

/-- **The ReplicatedDB an `addDB` constructs when `db_map_.add` fails is never
reached**: in every continuation of that statement nothing holds it, and it is
never written, pulled or handed to the cleaner. -/
theorem rejected_db_untouched (h : Reachable w) {i : Nat} {th : Thread} {o : WriteOutcome}
    {n : String} {r : ReplicaRole} {out : Option (Option Nat)} {w₁ : World}
    (hth : w.threads[i]? = some th) (hc : th.call = .addDB n r out) (hpc : th.pc = .start)
    (hn : (w.dbMap n).isSome) (hex : w.exec i th o = some w₁)
    (hrun : Relation.ReflTransGen Step w₁ w') :
    ¬ w'.Held w.dbs.length ∧ w'.callsOn w.dbs.length = ([], 0, 0) := by
  obtain ⟨hd, hcalls⟩ := unbuilt_untouched h (le_refl w.dbs.length)
  obtain ⟨d₀, hd₀⟩ := Option.isSome_iff_exists.1 hn
  obtain ⟨c, pc, db, out'⟩ := th
  dsimp only at hc hpc
  subst hc hpc
  simp only [World.exec, DbMap.add, hd₀, Option.some.injEq] at hex
  -- the statement only records its effect and returns: nothing holds the new one
  have hd₁ : ¬ w₁.Held w.dbs.length := by
    rw [← hex]
    exact fun h' => hd (held_of_setThread hth rfl rfl rfl
      (fun _ h => absurd h (by simp [Thread.Holds])) h')
  have hlt : w.dbs.length < w₁.dbs.length := by rw [← hex]; simp
  obtain ⟨-, hd', hcalls'⟩ := dead_run hlt hd₁ hrun
  exact ⟨hd', hcalls'.trans (by rw [← hex]; exact hcalls)⟩

/-- A second `addDB("a")` while the first holds `a`: the ReplicatedDB it builds
is never reached. -/
theorem rejected_db_untouched_second_add :
    let w : World :=
      ⟨Function.update (fun _ => none) "a" (some 0), [⟨"a", .leader, 0⟩], [], [], [], fun _ => 0,
        [⟨.addDB "a" .leader none, .holding, some 0, none⟩, ⟨.addDB "a" .leader none, .start, none, none⟩],
        [(0, .add "a" 0 true)]⟩
    let w₁ : World :=
      ⟨Function.update (fun _ => none) "a" (some 0), [⟨"a", .leader, 0⟩, ⟨"a", .leader, 1⟩], [], [],
        [], fun _ => 0,
        [⟨.addDB "a" .leader none, .holding, some 0, none⟩,
          ⟨.addDB "a" .leader none, .returned .dbPreExist, some 1, none⟩],
        [(1, .add "a" 1 false), (0, .add "a" 0 true)]⟩
    Reachable w ∧ w.threads[1]? = some ⟨.addDB "a" .leader none, .start, none, none⟩ ∧
      (w.dbMap "a").isSome ∧
      w.exec 1 ⟨.addDB "a" .leader none, .start, none, none⟩ (.status true) = some w₁ ∧
      ¬ w₁.Held w.dbs.length ∧ w₁.callsOn w.dbs.length = ([], 0, 0) := by
  intro w w₁
  have h : Reachable w :=
    .tail (.tail (.tail .refl (.call (.addDB "a" .leader none)))
      (.exec 0 _ (.status true) _ rfl rfl)) (.call (.addDB "a" .leader none))
  have hn : (w.dbMap "a").isSome := rfl
  have hex : w.exec 1 ⟨.addDB "a" .leader none, .start, none, none⟩ (.status true) = some w₁ := rfl
  exact ⟨h, rfl, hn, hex, rejected_db_untouched h rfl rfl rfl hn hex .refl⟩

end Replicator

end Rocksplicator
