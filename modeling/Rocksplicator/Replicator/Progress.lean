import Rocksplicator.Replicator.Entries

/-!
# No call is stuck for good

`removeDB` polls `weak_db` until no `shared_ptr` to the ReplicatedDB it removed
is left, and nothing bounds that wait. It ends once the other calls have run
past their local pointers and the holders outside the calls have dropped
theirs, because `db_map_` never takes a removed ReplicatedDB back.

* `Inv.exec_enabled`: every statement of a thread that is not waiting on
  `weak_db` can run.
* `run_down`: steps that each move one thread on within its call, taken while
  they are available, reach a state where none is.
* `calls_can_return`: **from every reachable state, some run returns every call
  made so far.**
* `quiet_runs_return`: **once no call starts and no reference is taken, every
  interleaving of the calls in flight and of holders dropping references ends,
  and ends with every call returned.**
-/

namespace Rocksplicator

namespace Replicator

/-- The statements the threads have left, `removeDB`'s wait included. -/
def World.rank (w : World) : Nat := (w.threads.map fun th => th.pc.rank).sum

/-- Moving one thread to a point of lower rank lowers the total. -/
theorem rank_set_lt {l : List Thread} {i : Nat} {th th' : Thread} (h : l[i]? = some th)
    (hlt : th'.pc.rank < th.pc.rank) :
    ((l.set i th').map fun t => t.pc.rank).sum < (l.map fun t => t.pc.rank).sum := by
  induction l generalizing i with
  | nil => simp at h
  | cons t l ih =>
    cases i with
    | zero =>
      obtain rfl : t = th := by simpa using h
      simp only [List.set_cons_zero, List.map_cons, List.sum_cons]
      omega
    | succ i =>
      simpa only [List.set_cons_succ, List.map_cons, List.sum_cons, Nat.add_lt_add_iff_left]
        using ih (by simpa using h)

/-- Moving one thread on within its call keeps every thread's call. -/
theorem calls_set {l : List Thread} {i : Nat} {th th' : Thread} (h : l[i]? = some th)
    (hc : th'.call = th.call) : (l.set i th').map Thread.call = l.map Thread.call := by
  apply List.ext_getElem?
  intro j
  rw [List.getElem?_map, List.getElem?_map]
  by_cases hij : i = j
  · subst hij
    rw [List.getElem?_set_self (List.getElem?_eq_some_iff.1 h).1, h]
    simp [hc]
  · rw [List.getElem?_set_ne hij]

variable {w : World}

/-- Every statement of a thread that is not waiting on `weak_db` can run. -/
theorem Inv.exec_enabled (hw : Inv w) {i : Nat} {th : Thread} (hth : w.threads[i]? = some th)
    (hpc : 2 ≤ th.pc.rank) (o : WriteOutcome) : ∃ w', w.exec i th o = some w' := by
  have hok := hw.threads_ok i th hth
  obtain ⟨c, pc, db, out⟩ := th
  cases pc with
  | start => cases c <;> simp only [World.exec] <;> split <;> exact ⟨_, rfl⟩
  | holding =>
    cases c with
    | addDB => obtain ⟨d, rfl, -⟩ := hok; exact ⟨_, rfl⟩
    | removeDB => exact ⟨_, rfl⟩
    | write => obtain ⟨d, rfl, -⟩ := hok; exact ⟨_, rfl⟩
  | pulled =>
    cases c with
    | addDB => obtain ⟨d, rfl, -⟩ := hok; exact ⟨_, rfl⟩
    | _ => exact hok.elim
  | waiting => simp [Pc.rank] at hpc
  | returned => simp [Pc.rank] at hpc

/-- Steps that each move one thread on within its call, taken while some
thread fails `P` and keeping `Q`, end where every thread satisfies `P`. -/
theorem run_down (Q : World → Prop) (P : Thread → Prop)
    (hstep : ∀ w, Q w → ∀ i th, w.threads[i]? = some th → ¬ P th →
      ∃ w' th', Step w w' ∧ Q w' ∧ w'.threads = w.threads.set i th' ∧ th'.call = th.call ∧
        th'.pc.rank < th.pc.rank) :
    ∀ w, Q w → ∃ w', Relation.ReflTransGen Step w w' ∧ Q w' ∧
      w'.threads.map Thread.call = w.threads.map Thread.call ∧ ∀ th ∈ w'.threads, P th := by
  intro w hw
  obtain ⟨m, hm⟩ : ∃ m, w.rank = m := ⟨_, rfl⟩
  induction m using Nat.strong_induction_on generalizing w with
  | _ m ih =>
    by_cases hall : ∀ th ∈ w.threads, P th
    · exact ⟨w, .refl, hw, rfl, hall⟩
    push_neg at hall
    obtain ⟨th, hmem, hP⟩ := hall
    obtain ⟨i, hi⟩ := List.mem_iff_getElem?.1 hmem
    obtain ⟨w₁, th', hs, hq, hthr, hc, hlt⟩ := hstep w hw i th hi hP
    have hrank : w₁.rank < m := by
      rw [← hm, World.rank, World.rank, hthr]
      exact rank_set_lt hi hlt
    obtain ⟨w', hrun, hq', hcalls, hP'⟩ := ih _ hrank w₁ hq rfl
    exact ⟨w', .head hs hrun, hq', by rw [hcalls, hthr, calls_set hi hc], hP'⟩

/-- The holders outside the calls drop every reference to `d`. -/
theorem release_one (w : World) (d : Nat) : ∀ (k : Nat) (ext : Nat → Nat), ext d = k →
    Relation.ReflTransGen Step { w with extRefs := ext }
      { w with extRefs := Function.update ext d 0 }
  | 0, ext, hk => by rw [← hk, Function.update_eq_self]
  | k + 1, ext, hk => by
    have hs : Step { w with extRefs := ext }
        { w with extRefs := Function.update ext d (ext d - 1) } := Step.release d (show 0 < ext d by omega)
    have hrun := release_one w d k (Function.update ext d (ext d - 1)) (by simp [hk])
    rw [Function.update_idem] at hrun
    exact .head hs hrun

/-- The holders outside the calls drop every reference they hold. -/
theorem release_all (w : World) : ∀ (N : Nat) (ext : Nat → Nat), (∀ d, N ≤ d → ext d = 0) →
    Relation.ReflTransGen Step { w with extRefs := ext } { w with extRefs := fun _ => 0 }
  | 0, ext, h => by rw [show ext = fun _ => 0 from funext fun d => h d (Nat.zero_le d)]
  | N + 1, ext, h => by
    refine (release_one w N _ ext rfl).trans (release_all w N _ fun d hd => ?_)
    rw [Function.update_apply]
    split_ifs with hdN
    · rfl
    · exact h d (by omega)

/-- A thread not yet at its wait or its return runs its next statement. -/
theorem settle_step (w : World) (h : Reachable w) (i : Nat) (th : Thread)
    (hth : w.threads[i]? = some th) (hP : ¬ th.pc.rank ≤ 1) :
    ∃ w' th', Step w w' ∧ Reachable w' ∧ w'.threads = w.threads.set i th' ∧
      th'.call = th.call ∧ th'.pc.rank < th.pc.rank := by
  obtain ⟨w', hex⟩ := (inv_reachable h).exec_enabled hth (by omega) (.status true)
  obtain ⟨th', hsh⟩ := exec_shape hex
  have hs : Step w w' := .exec i th _ w' hth hex
  exact ⟨w', th', hs, .tail h hs, hsh.threads, hsh.call, hsh.rank⟩

/-- Once no thread holds a local pointer and nothing outside the calls holds a
reference, a waiting `removeDB` finds `weak_db` expired. -/
theorem expire_step (w : World)
    (hq : Reachable w ∧ (∀ d, w.extRefs d = 0) ∧ ∀ th ∈ w.threads, th.pc.rank ≤ 1)
    (i : Nat) (th : Thread) (hth : w.threads[i]? = some th) (hP : ¬ th.pc.rank = 0) :
    ∃ w' th', Step w w' ∧
      (Reachable w' ∧ (∀ d, w'.extRefs d = 0) ∧ ∀ th ∈ w'.threads, th.pc.rank ≤ 1) ∧
      w'.threads = w.threads.set i th' ∧ th'.call = th.call ∧ th'.pc.rank < th.pc.rank := by
  obtain ⟨h, hext, hsettled⟩ := hq
  have hmem : th ∈ w.threads := List.mem_iff_getElem?.2 ⟨i, hth⟩
  -- the thread is a `removeDB` polling `weak_db`
  have hpc : th.pc = .waiting := by
    have := hsettled th hmem
    obtain ⟨c, pc, db, out⟩ := th
    cases pc <;> simp_all [Pc.rank]
  have hok := (inv_reachable h).threads_ok i th hth
  obtain ⟨c, pc, db, out⟩ := th
  dsimp only at hpc
  subst hpc
  cases c with
  | addDB => exact hok.elim
  | write => exact hok.elim
  | removeDB n =>
    obtain ⟨d, hdb, -⟩ := hok
    have hnh : ¬ w.Held d := by
      rintro (⟨n', hn'⟩ | ⟨t, ht, hpc', -⟩ | hpos)
      · exact (inv_reachable h).removed_unmapped hth rfl hdb n' hn'
      · have := hsettled t ht
        rcases hpc' with hpc' | hpc' <;> simp [hpc', Pc.rank] at this
      · exact absurd hpos (by rw [hext d]; exact lt_irrefl 0)
    have hs := Step.expired i _ n d hth rfl rfl hdb hnh
    refine ⟨_, _, hs, ⟨.tail h hs, hext, fun t ht => ?_⟩, rfl, rfl, by simp [Pc.rank]⟩
    rcases List.mem_or_eq_of_mem_set ht with ht | rfl
    · exact hsettled t ht
    · simp [Pc.rank]

/-- **No call is stuck for good.** From every reachable state there is a run in
which every call made so far returns: each runs to its end or to its wait, the
holders outside the calls drop their references, and every waiting `removeDB`
then finds `weak_db` expired. -/
theorem calls_can_return (h : Reachable w) :
    ∃ w', Relation.ReflTransGen Step w w' ∧ w'.threads.map Thread.call = w.threads.map Thread.call ∧
      ∀ th ∈ w'.threads, ∃ rc, th.pc = .returned rc := by
  -- every call runs up to its wait or its return
  obtain ⟨w₁, r₁, h₁, c₁, s₁⟩ := run_down Reachable (fun th => th.pc.rank ≤ 1) settle_step w h
  -- the holders outside the calls drop their references
  have r₂ : Relation.ReflTransGen Step w₁ { w₁ with extRefs := fun _ => 0 } :=
    release_all w₁ w₁.dbs.length w₁.extRefs fun d hd =>
      Nat.eq_zero_of_not_pos fun hpos => absurd ((inv_reachable h₁).ext_lt d hpos) (not_lt.2 hd)
  -- every waiting `removeDB` returns
  obtain ⟨w₃, r₃, -, c₃, s₃⟩ := run_down _ (fun th => th.pc.rank = 0) expire_step _
    ⟨h₁.trans r₂, fun _ => rfl, s₁⟩
  refine ⟨w₃, r₁.trans (r₂.trans r₃), c₃.trans c₁, fun th ht => ?_⟩
  have := s₃ th ht
  cases hpc : th.pc <;> simp_all [Pc.rank]

/-- `addDB("a")` returns, a holder outside the calls takes a reference to its
ReplicatedDB, and `removeDB("a")` waits on it: the calls can still all return. -/
theorem calls_can_return_waiting_remove :
    let w : World :=
      ⟨Function.update (Function.update (fun _ => none) "a" (some 0)) "a" none,
        [⟨"a", .leader, 0⟩], [], [0], [], Function.update (fun _ => 0) 0 1,
        [⟨.addDB "a" .leader none, .returned .ok, some 0, none⟩, ⟨.removeDB "a", .waiting, some 0, none⟩],
        [(1, .remove "a" (some 0)), (0, .add "a" 0 true)]⟩
    Reachable w ∧ ∃ w', Relation.ReflTransGen Step w w' ∧
      w'.threads.map Thread.call = w.threads.map Thread.call ∧
      ∀ th ∈ w'.threads, ∃ rc, th.pc = .returned rc := by
  intro w
  have h : Reachable w :=
    .tail (.tail (.tail (.tail (.tail (.tail (.tail (.tail .refl (.call (.addDB "a" .leader none)))
      (.exec 0 _ (.status true) _ rfl rfl)) (.exec 0 _ (.status true) _ rfl rfl))
      (.exec 0 _ (.status true) _ rfl rfl)) (.acquire 0 (.inl ⟨"a", rfl⟩)))
      (.call (.removeDB "a"))) (.exec 1 _ (.status true) _ rfl rfl))
      (.exec 1 _ (.status true) _ rfl rfl)
  exact ⟨h, calls_can_return h⟩

/-- A step of the calls in flight, or of a holder outside the calls dropping a
reference: no call starts and no reference is taken. -/
def QuietStep (w w' : World) : Prop :=
  Step w w' ∧ w'.threads.length = w.threads.length ∧ ∀ d, w'.extRefs d ≤ w.extRefs d

/-- What is left to do: the statements of the calls, and the references held
outside them. -/
def World.pending (w : World) : Nat := w.rank + ∑ d ∈ Finset.range w.dbs.length, w.extRefs d

/-- The references held outside the calls, counted over a longer list of
ReplicatedDBs, are the same. -/
theorem refs_of_prefix (hw : Inv w) {l : List ReplicatedDB} (hl : w.dbs <+: l) :
    ∑ d ∈ Finset.range l.length, w.extRefs d = ∑ d ∈ Finset.range w.dbs.length, w.extRefs d :=
  (Finset.sum_subset (Finset.range_subset.2 hl.length_le) fun d _ hd =>
    Nat.eq_zero_of_not_pos fun hpos => hd (Finset.mem_range.2 (hw.ext_lt d hpos))).symm

/-- **Every quiet step lowers what is left to do.** -/
theorem quiet_pending_lt (hw : Inv w) (h : QuietStep w w') : w'.pending < w.pending := by
  obtain ⟨hs, hlen, hext⟩ := h
  cases hs with
  | call c => simp at hlen
  | exec i th o w' hth hex =>
    obtain ⟨th', hsh⟩ := exec_shape hex
    have hrank : w'.rank < w.rank := by
      rw [World.rank, World.rank, hsh.threads]; exact rank_set_lt hth hsh.rank
    unfold World.pending
    rw [hsh.extRefs, refs_of_prefix hw hsh.dbs]
    omega
  | expired i th n d hth hc hpc =>
    have hrank : (w.setThread i { th with pc := .returned .ok }).rank < w.rank :=
      rank_set_lt hth (by simp [hpc, Pc.rank])
    unfold World.pending
    simp only [setThread_dbs, setThread_extRefs]
    omega
  | acquire d hd => have := hext d; simp at this
  | release d hd =>
    unfold World.pending
    dsimp only
    have hlt : ∑ x ∈ Finset.range w.dbs.length, Function.update w.extRefs d (w.extRefs d - 1) x <
        ∑ x ∈ Finset.range w.dbs.length, w.extRefs x :=
      Finset.sum_lt_sum (fun x _ => hext x)
        ⟨d, Finset.mem_range.2 (hw.ext_lt d hd), by simp; omega⟩
    simp only [World.rank] at hlt ⊢
    omega

/-- **No quiet deadlock**: in a reachable state where no call can run a
statement and no holder can drop a reference, every call has returned. -/
theorem quiet_stuck_returned (h : Reachable w) (hstuck : ∀ w', ¬ QuietStep w w') :
    ∀ th ∈ w.threads, ∃ rc, th.pc = .returned rc := by
  have hw := inv_reachable h
  -- a statement that can run is a quiet step
  have hexec : ∀ i (th : Thread), w.threads[i]? = some th → 2 ≤ th.pc.rank → False :=
      fun i th hth hr => by
    obtain ⟨w', hex⟩ := hw.exec_enabled hth hr (.status true)
    obtain ⟨_, hsh⟩ := exec_shape hex
    exact hstuck w' ⟨.exec i th _ w' hth hex, by rw [hsh.threads, List.length_set],
      fun d => by rw [hsh.extRefs]⟩
  intro th hmem
  obtain ⟨i, hth⟩ := List.mem_iff_getElem?.1 hmem
  have hok := hw.threads_ok i th hth
  obtain ⟨c, pc, db, out⟩ := th
  cases pc with
  | returned rc => exact ⟨rc, rfl⟩
  | waiting =>
    cases c with
    | removeDB n =>
      obtain ⟨d, hdb, -⟩ := hok
      exfalso
      by_cases hheld : w.Held d
      · -- whoever holds `d` can run, or drop its reference
        rcases hheld with ⟨n', hn'⟩ | ⟨t, ht, hh⟩ | hpos
        · exact hw.removed_unmapped hth rfl hdb n' hn'
        · obtain ⟨j, hj⟩ := List.mem_iff_getElem?.1 ht
          exact hexec j t hj (by rcases hh.1 with h | h <;> simp [h, Pc.rank])
        · exact hstuck _ ⟨.release d hpos, rfl, fun d' => by
            by_cases hd : d' = d <;> simp [Function.update_apply, hd]⟩
      · exact hstuck _ ⟨.expired i _ n d hth rfl rfl hdb hheld, by simp, fun _ => le_rfl⟩
    | _ => exact hok.elim
  | _ => exact (hexec i _ hth (by simp [Pc.rank])).elim

/-- **Once no call starts and nothing takes a new reference, the calls in
flight all return, whatever the interleaving.** From every reachable state,
every run of statements of the calls in flight and of holders dropping
references is finite, and it stops only where every call has returned: no
interleaving deadlocks or livelocks them, `removeDB`'s wait included. -/
theorem quiet_runs_return (h : Reachable w) :
    Acc (fun w₂ w₁ => QuietStep w₁ w₂) w ∧
      ((∀ w', ¬ QuietStep w w') → ∀ th ∈ w.threads, ∃ rc, th.pc = .returned rc) := by
  refine ⟨?_, quiet_stuck_returned h⟩
  obtain ⟨m, hm⟩ : ∃ m, w.pending = m := ⟨_, rfl⟩
  induction m using Nat.strong_induction_on generalizing w with
  | _ m ih =>
    exact .intro _ fun w₂ hq => ih _ (hm ▸ quiet_pending_lt (inv_reachable h) hq) (.tail h hq.1) rfl

/-- `removeDB("a")` waits while a holder outside the calls keeps `a`'s
ReplicatedDB: every quiet run still ends with both calls returned. -/
theorem quiet_runs_return_waiting_remove :
    let w : World :=
      ⟨Function.update (Function.update (fun _ => none) "a" (some 0)) "a" none,
        [⟨"a", .leader, 0⟩], [], [0], [], Function.update (fun _ => 0) 0 1,
        [⟨.addDB "a" .leader none, .returned .ok, some 0, none⟩, ⟨.removeDB "a", .waiting, some 0, none⟩],
        [(1, .remove "a" (some 0)), (0, .add "a" 0 true)]⟩
    Reachable w ∧ Acc (fun w₂ w₁ => QuietStep w₁ w₂) w ∧
      ((∀ w', ¬ QuietStep w w') → ∀ th ∈ w.threads, ∃ rc, th.pc = .returned rc) := by
  intro w
  have h : Reachable w :=
    .tail (.tail (.tail (.tail (.tail (.tail (.tail (.tail .refl (.call (.addDB "a" .leader none)))
      (.exec 0 _ (.status true) _ rfl rfl)) (.exec 0 _ (.status true) _ rfl rfl))
      (.exec 0 _ (.status true) _ rfl rfl)) (.acquire 0 (.inl ⟨"a", rfl⟩)))
      (.call (.removeDB "a"))) (.exec 1 _ (.status true) _ rfl rfl))
      (.exec 1 _ (.status true) _ rfl rfl)
  exact ⟨h, quiet_runs_return h⟩

end Replicator

end Rocksplicator
