import Rocksplicator.Replicator.World

/-!
# What every reachable state of the replicator satisfies

The invariant `Inv` ties `db_map_` to the ghost history (it is the registry
after the history's effects, and the history is legal), bounds every address to
the ReplicatedDBs constructed, and gives each thread the clauses of its call up
to where it has got (`ThreadOK`). A step of one thread leaves the other threads'
clauses in place (`ThreadOK.frame`): what they mention only grows, a ReplicatedDB
is pulled and handed to the cleaner only by the thread that constructed it, and
a ReplicatedDB that has lost its last reference never gets one back.

* `inv_init`, `inv_step`: the invariant holds at the start and after every step.
* `inv_reachable`: **it holds in every state that an interleaving of calls
  reaches.**
-/

namespace Rocksplicator

namespace Replicator

/-- The `pullFromUpstream` calls a successful `addDB` of role `r` makes. -/
def pullCount (r : ReplicaRole) : Nat := if pullsFor r then 1 else 0

/-- An `addDB` past its `db_map_.add`: the ReplicatedDB `d` it constructed, its
effect, `*replicated_db`, and how many times `d` has been pulled and handed to
the cleaner. -/
def AddOK (w : World) (i : Nat) (n : String) (r : ReplicaRole) (out : Option (Option Nat))
    (th : Thread) (ok : Bool) (pulls cleans : Nat) : Prop :=
  ∃ d, th.db = some d ∧ w.dbs[d]? = some ⟨n, r, i⟩ ∧ (i, .add n d ok) ∈ w.hist ∧
    th.out = (if ok then out.map fun _ => some d else out) ∧
    w.pulls.count d = pulls ∧ w.cleaner.count d = cleans

/-- A `removeDB` past its `db_map_.remove`, which found `d`; once it has
returned, nothing holds `d`. -/
def RemoveOK (w : World) (i : Nat) (n : String) (th : Thread) (dead : Bool) : Prop :=
  ∃ d, th.db = some d ∧ d < w.dbs.length ∧ (i, .remove n (some d)) ∈ w.hist ∧
    (dead = true → ¬ w.Held d)

/-- A `write` past its `db_map_.get`, which found `d`. -/
def GetOK (w : World) (i : Nat) (n : String) (th : Thread) (d : Nat) : Prop :=
  th.db = some d ∧ d < w.dbs.length ∧ (i, .get n (some d)) ∈ w.hist

/-- The clauses of thread `i`'s call, up to where it has got. -/
def ThreadOK (w : World) (i : Nat) (th : Thread) : Prop :=
  match th.call, th.pc with
  | c, .start => th.db = none ∧ th.out = c.out ∧ ∀ e, (i, e) ∉ w.hist
  | .addDB n r out, .holding => AddOK w i n r out th true 0 0
  | .addDB n r out, .pulled => AddOK w i n r out th true (pullCount r) 0
  | .addDB n r out, .returned rc =>
    rc = .ok ∧ AddOK w i n r out th true (pullCount r) 1 ∨
      rc = .dbPreExist ∧ AddOK w i n r out th false 0 0
  | .removeDB n, .holding => RemoveOK w i n th false
  | .removeDB n, .waiting => RemoveOK w i n th false
  | .removeDB n, .returned rc =>
    rc = .ok ∧ RemoveOK w i n th true ∨
      rc = .dbNotFound ∧ th.db = none ∧ (i, .remove n none) ∈ w.hist
  | .write n, .holding => ∃ d, GetOK w i n th d
  | .write n, .returned rc =>
    rc = .dbNotFound ∧ th.db = none ∧ (i, .get n none) ∈ w.hist ∨
      ∃ d o, GetOK w i n th d ∧ (i, d, o) ∈ w.writes ∧ rc = writeCode o
  | _, _ => False

/-- What a step of thread `i` (or of the environment, for an `i` that is no
thread) leaves in place for every other thread. -/
structure Frame (w w' : World) (i : Nat) : Prop where
  hist : ∃ new, w'.hist = new ++ w.hist ∧ ∀ p ∈ new, p.1 = i
  dbs : w.dbs <+: w'.dbs
  writes : w.writes <+: w'.writes
  pulls : ∀ d rec, w.dbs[d]? = some rec → rec.creator ≠ i → w'.pulls.count d = w.pulls.count d
  cleaner : ∀ d rec, w.dbs[d]? = some rec → rec.creator ≠ i →
    w'.cleaner.count d = w.cleaner.count d
  dead : ∀ d, d < w.dbs.length → ¬ w.Held d → ¬ w'.Held d

section Frame

variable {w w' : World} {i j : Nat} (hf : Frame w w' i)
include hf

theorem Frame.mem_hist {p : Nat × Effect} (h : p ∈ w.hist) : p ∈ w'.hist := by
  obtain ⟨new, hnew, -⟩ := hf.hist
  rw [hnew]; exact List.mem_append_right _ h

theorem Frame.not_mem_hist (hj : j ≠ i) {e : Effect} (h : (j, e) ∉ w.hist) : (j, e) ∉ w'.hist := by
  obtain ⟨new, hnew, hi⟩ := hf.hist
  rw [hnew, List.mem_append, not_or]
  exact ⟨fun hm => hj (hi _ hm), h⟩

theorem Frame.dbs_get {d : Nat} {rec : ReplicatedDB} (h : w.dbs[d]? = some rec) :
    w'.dbs[d]? = some rec := by
  obtain ⟨t, ht⟩ := hf.dbs
  rw [← ht, List.getElem?_append_left (List.getElem?_eq_some_iff.1 h).1, h]

theorem Frame.dbs_lt {d : Nat} (h : d < w.dbs.length) : d < w'.dbs.length :=
  lt_of_lt_of_le h hf.dbs.length_le

theorem AddOK.frame (hj : j ≠ i) {n : String} {r : ReplicaRole} {out : Option (Option Nat)}
    {th : Thread} {ok : Bool} {p c : Nat} (h : AddOK w j n r out th ok p c) :
    AddOK w' j n r out th ok p c := by
  obtain ⟨d, hd, hrec, hh, hout, hp, hc⟩ := h
  exact ⟨d, hd, hf.dbs_get hrec, hf.mem_hist hh, hout, (hf.pulls d _ hrec hj).trans hp,
    (hf.cleaner d _ hrec hj).trans hc⟩

theorem RemoveOK.frame {n : String} {th : Thread} {dead : Bool} (h : RemoveOK w j n th dead) :
    RemoveOK w' j n th dead := by
  obtain ⟨d, hd, hlt, hh, hdead⟩ := h
  exact ⟨d, hd, hf.dbs_lt hlt, hf.mem_hist hh, fun h => hf.dead d hlt (hdead h)⟩

theorem GetOK.frame {n : String} {th : Thread} {d : Nat} (h : GetOK w j n th d) :
    GetOK w' j n th d :=
  ⟨h.1, hf.dbs_lt h.2.1, hf.mem_hist h.2.2⟩

/-- **Another thread's step keeps a thread's clauses.** -/
theorem ThreadOK.frame (hj : j ≠ i) {th : Thread} (h : ThreadOK w j th) : ThreadOK w' j th := by
  obtain ⟨c, pc, db, out⟩ := th
  cases pc with
  | start => cases c <;> exact ⟨h.1, h.2.1, fun e => hf.not_mem_hist hj (h.2.2 e)⟩
  | holding =>
    cases c with
    | addDB => exact AddOK.frame hf hj h
    | removeDB => exact RemoveOK.frame hf h
    | write => obtain ⟨d, hd⟩ := h; exact ⟨d, GetOK.frame hf hd⟩
  | pulled =>
    cases c with
    | addDB => exact AddOK.frame hf hj h
    | removeDB => exact h.elim
    | write => exact h.elim
  | waiting =>
    cases c with
    | addDB => exact h.elim
    | removeDB => exact RemoveOK.frame hf h
    | write => exact h.elim
  | returned rc =>
    cases c with
    | addDB =>
      rcases h with ⟨hrc, h⟩ | ⟨hrc, h⟩
      · exact .inl ⟨hrc, AddOK.frame hf hj h⟩
      · exact .inr ⟨hrc, AddOK.frame hf hj h⟩
    | removeDB =>
      rcases h with ⟨hrc, h⟩ | ⟨hrc, hd, hh⟩
      · exact .inl ⟨hrc, RemoveOK.frame hf h⟩
      · exact .inr ⟨hrc, hd, hf.mem_hist hh⟩
    | write =>
      rcases h with ⟨hrc, hd, hh⟩ | ⟨d, o, hg, hw, hrc⟩
      · exact .inl ⟨hrc, hd, hf.mem_hist hh⟩
      · exact .inr ⟨d, o, GetOK.frame hf hg, hf.writes.subset hw, hrc⟩

end Frame

/-- The invariant of the replicator. -/
structure Inv (w : World) : Prop where
  registry : ∀ n, w.dbMap n = registered w.hist n
  legal : Legal w.hist
  once : (w.hist.map Prod.fst).Nodup
  hist_lt : ∀ p ∈ w.hist, p.1 < w.threads.length
  map_lt : ∀ n d, w.dbMap n = some d → d < w.dbs.length
  pulls_lt : ∀ d ∈ w.pulls, d < w.dbs.length
  cleaner_lt : ∀ d ∈ w.cleaner, d < w.dbs.length
  ext_lt : ∀ d, 0 < w.extRefs d → d < w.dbs.length
  creator : ∀ d (rec : ReplicatedDB), w.dbs[d]? = some rec →
    ∃ (th : Thread) (out : Option (Option Nat)), w.threads[rec.creator]? = some th ∧ th.db = some d ∧ th.call = .addDB rec.name rec.role out
  threads_ok : ∀ i th, w.threads[i]? = some th → ThreadOK w i th

section Helpers

variable {w w₁ : World} {i : Nat} {th th' : Thread}

theorem AddOK.db_lt {n : String} {r : ReplicaRole} {out : Option (Option Nat)} {ok : Bool}
    {p c : Nat} (h : AddOK w i n r out th ok p c) {d : Nat} (hd : th.db = some d) :
    d < w.dbs.length := by
  obtain ⟨d', hd', hrec, -⟩ := h
  rw [hd, Option.some.injEq] at hd'
  exact hd' ▸ (List.getElem?_eq_some_iff.1 hrec).1

theorem RemoveOK.db_lt {n : String} {dead : Bool} (h : RemoveOK w i n th dead) {d : Nat}
    (hd : th.db = some d) : d < w.dbs.length := by
  obtain ⟨d', hd', hlt, -⟩ := h
  rw [hd, Option.some.injEq] at hd'
  exact hd' ▸ hlt

theorem GetOK.db_lt {n : String} {d' : Nat} (h : GetOK w i n th d') {d : Nat}
    (hd : th.db = some d) : d < w.dbs.length := by
  rw [h.1, Option.some.injEq] at hd
  exact hd ▸ h.2.1

/-- The ReplicatedDB a thread's local pointer names has been constructed. -/
theorem ThreadOK.db_lt (h : ThreadOK w i th) {d : Nat} (hd : th.db = some d) :
    d < w.dbs.length := by
  obtain ⟨c, pc, db, out⟩ := th
  cases pc with
  | start => cases c <;> exact absurd (h.1.symm.trans hd) (by simp)
  | holding =>
    cases c with
    | addDB => exact AddOK.db_lt h hd
    | removeDB => exact RemoveOK.db_lt h hd
    | write => obtain ⟨_, hg⟩ := h; exact GetOK.db_lt hg hd
  | pulled => cases c with
    | addDB => exact AddOK.db_lt h hd
    | _ => exact h.elim
  | waiting => cases c with
    | removeDB => exact RemoveOK.db_lt h hd
    | _ => exact h.elim
  | returned rc =>
    cases c with
    | addDB => rcases h with ⟨-, h⟩ | ⟨-, h⟩ <;> exact AddOK.db_lt h hd
    | removeDB =>
      rcases h with ⟨-, h⟩ | ⟨-, h, -⟩
      · exact RemoveOK.db_lt h hd
      · exact absurd (h.symm.trans hd) (by simp)
    | write =>
      rcases h with ⟨-, h, -⟩ | ⟨_, _, hg, -⟩
      · exact absurd (h.symm.trans hd) (by simp)
      · exact GetOK.db_lt hg hd

/-- Only a constructed ReplicatedDB is referenced. -/
theorem Inv.held_lt (hw : Inv w) {d : Nat} (h : w.Held d) : d < w.dbs.length := by
  rcases h with ⟨n, hn⟩ | ⟨t, ht, -, hd⟩ | hext
  · exact hw.map_lt n d hn
  · obtain ⟨j, hj⟩ := List.getElem?_of_mem ht
    exact (hw.threads_ok j t hj).db_lt hd
  · exact hw.ext_lt d hext

theorem held_setThread {d : Nat} (h : (w.setThread i th').Held d) : w.Held d ∨ th'.Holds d := by
  rcases h with hm | ⟨t, ht, hh⟩ | he
  · exact .inl (.inl hm)
  · rcases List.mem_or_eq_of_mem_set ht with ht | rfl
    · exact .inl (.inr (.inl ⟨t, ht, hh⟩))
    · exact .inr hh
  · exact .inl (.inr (.inr he))

/-- A statement that leaves `db_map_` and the other references alone, and after
which the thread holds at most what it held before, makes nothing live. -/
theorem held_of_setThread (hth : w.threads[i]? = some th) (hmap : w₁.dbMap = w.dbMap)
    (hthr : w₁.threads = w.threads) (hext : w₁.extRefs = w.extRefs)
    (hh : ∀ d, th'.Holds d → th.Holds d) {d : Nat} (h : (w₁.setThread i th').Held d) : w.Held d := by
  rcases held_setThread h with (⟨n, hn⟩ | ⟨t, ht, ht'⟩ | he) | hd
  · exact .inl ⟨n, hmap ▸ hn⟩
  · exact .inr (.inl ⟨t, hthr ▸ ht, ht'⟩)
  · exact .inr (.inr (hext ▸ he))
  · exact .inr (.inl ⟨th, List.mem_iff_getElem?.2 ⟨i, hth⟩, hh d hd⟩)

/-- After a statement of thread `i`, the threads' clauses follow from the other
threads' old ones and the clause of `i`'s new state. -/
theorem threads_ok_setThread (hw : Inv w) (hth : w.threads[i]? = some th)
    (hthr : w₁.threads = w.threads) (hf : Frame w (w₁.setThread i th') i)
    (hok : ThreadOK (w₁.setThread i th') i th') :
    ∀ j t, (w₁.setThread i th').threads[j]? = some t → ThreadOK (w₁.setThread i th') j t := by
  intro j t ht
  rw [setThread_threads, hthr] at ht
  by_cases hji : j = i
  · subst hji
    rw [List.getElem?_set_self (List.getElem?_eq_some_iff.1 hth).1, Option.some.injEq] at ht
    exact ht ▸ hok
  · rw [List.getElem?_set_ne (Ne.symm hji)] at ht
    exact (hw.threads_ok j t ht).frame hf hji

/-- After a statement that keeps the thread's call and local pointer and
constructs nothing, every ReplicatedDB's constructor still names it. -/
theorem creator_setThread (hw : Inv w) (hth : w.threads[i]? = some th)
    (hthr : w₁.threads = w.threads) (hdbs : w₁.dbs = w.dbs) (hcall : th'.call = th.call)
    (hdb : th'.db = th.db) :
    ∀ d (rec : ReplicatedDB), (w₁.setThread i th').dbs[d]? = some rec →
      ∃ (t : Thread) (out : Option (Option Nat)), (w₁.setThread i th').threads[rec.creator]? = some t ∧
        t.db = some d ∧ t.call = .addDB rec.name rec.role out := by
  intro d rec hrec
  obtain ⟨t, out, ht, htd, htc⟩ := hw.creator d rec (hdbs ▸ hrec)
  rw [setThread_threads, hthr]
  by_cases hci : rec.creator = i
  · rw [hci] at ht ⊢
    rw [hth, Option.some.injEq] at ht
    subst ht
    exact ⟨th', out, List.getElem?_set_self (List.getElem?_eq_some_iff.1 hth).1, hdb ▸ htd,
      hcall ▸ htc⟩
  · exact ⟨t, out, by rw [List.getElem?_set_ne (Ne.symm hci)]; exact ht, htd, htc⟩

/-- The clause of a thread that has not started. -/
theorem ThreadOK.start (h : ThreadOK w i th) (hpc : th.pc = .start) :
    th.db = none ∧ th.out = th.call.out ∧ ∀ e, (i, e) ∉ w.hist := by
  obtain ⟨c, pc, db, out⟩ := th
  cases hpc
  cases c <;> exact h

/-- No ReplicatedDB names a thread that has not started as its constructor. -/
theorem Inv.creator_ne (hw : Inv w) (hth : w.threads[i]? = some th) (hpc : th.pc = .start)
    {d : Nat} {rec : ReplicatedDB} (hrec : w.dbs[d]? = some rec) : rec.creator ≠ i := by
  rintro rfl
  obtain ⟨t, -, ht, htd, -⟩ := hw.creator d rec hrec
  rw [hth, Option.some.injEq] at ht
  subst ht
  rw [((hw.threads_ok _ _ hth).start hpc).1] at htd
  exact absurd htd (by simp)

/-- Past the old ReplicatedDBs there is only the one just constructed. -/
theorem eq_of_concat_getElem? {l : List ReplicatedDB} {x rec : ReplicatedDB} {d : Nat}
    (h : (l ++ [x])[d]? = some rec) (hle : l.length ≤ d) : d = l.length ∧ rec = x := by
  have hlt := (List.getElem?_eq_some_iff.1 h).1
  rw [List.length_append, List.length_singleton] at hlt
  obtain rfl : d = l.length := by omega
  rw [List.getElem?_concat_length, Option.some.injEq] at h
  exact ⟨rfl, h.symm⟩

end Helpers

section Steps

variable {w w₁ : World} {i : Nat} {th th' : Thread}

/-- **A statement that goes through `db_map_`.** Thread `i`, not started, takes
effect `e`, the registry's answer to the history so far. The invariant carries
over when `db_map_` becomes the registry after `e`, the only new references are
to entries of the old map or to what the statement constructs, everything
constructed is `i`'s, and the thread's new state satisfies its clause. -/
theorem inv_effect (hw : Inv w) (hth : w.threads[i]? = some th) (hpc : th.pc = .start)
    {e : Effect} (hagree : Agrees (registered w.hist) e) (hhist : w₁.hist = (i, e) :: w.hist)
    (hreg : ∀ n, w₁.dbMap n = registered ((i, e) :: w.hist) n) (hthr : w₁.threads = w.threads)
    (hext : w₁.extRefs = w.extRefs) (hpulls : w₁.pulls = w.pulls) (hcl : w₁.cleaner = w.cleaner)
    (hwr : w₁.writes = w.writes) (hdbs : w.dbs <+: w₁.dbs)
    (hmap : ∀ n d, w₁.dbMap n = some d → w.dbMap n = some d ∨ w.dbs.length = d)
    (hmap_lt : ∀ n d, w₁.dbMap n = some d → d < w₁.dbs.length)
    (hnew : ∀ d (rec : ReplicatedDB), w₁.dbs[d]? = some rec → w.dbs.length ≤ d →
      rec.creator = i ∧ th'.db = some d ∧ ∃ out, th'.call = .addDB rec.name rec.role out)
    (hheld : ∀ d, th'.Holds d → (∃ n, w.dbMap n = some d) ∨ w.dbs.length = d)
    (hok : ThreadOK (w₁.setThread i th') i th') : Inv (w₁.setThread i th') := by
  have hi : i < w.threads.length := (List.getElem?_eq_some_iff.1 hth).1
  have hnot := ((hw.threads_ok i th hth).start hpc).2.2
  have hlen : w.dbs.length ≤ w₁.dbs.length := hdbs.length_le
  have hf : Frame w (w₁.setThread i th') i := by
    refine ⟨⟨[(i, e)], hhist, by simp⟩, hdbs, by rw [setThread_writes, hwr], ?_, ?_, ?_⟩
    · intro d _ _ _; rw [setThread_pulls, hpulls]
    · intro d _ _ _; rw [setThread_cleaner, hcl]
    · intro d hd hnh hh
      rcases held_setThread hh with (⟨n, hn⟩ | ⟨t, ht, ht'⟩ | he) | h'
      · rcases hmap n d hn with hn | rfl
        · exact hnh (.inl ⟨n, hn⟩)
        · exact absurd hd (lt_irrefl _)
      · exact hnh (.inr (.inl ⟨t, hthr ▸ ht, ht'⟩))
      · exact hnh (.inr (.inr (hext ▸ he)))
      · rcases hheld d h' with hn | rfl
        · exact hnh (.inl hn)
        · exact absurd hd (lt_irrefl _)
  refine ⟨fun n => by rw [setThread_dbMap, setThread_hist, hhist]; exact hreg n,
    by rw [setThread_hist, hhist]; exact ⟨hagree, hw.legal⟩, ?_, ?_, hmap_lt, ?_, ?_, ?_, ?_,
    threads_ok_setThread hw hth hthr hf hok⟩
  · rw [setThread_hist, hhist, List.map_cons, List.nodup_cons]
    refine ⟨fun hm => ?_, hw.once⟩
    obtain ⟨⟨j, e'⟩, hp, hj⟩ := List.mem_map.1 hm
    obtain rfl : j = i := hj
    exact hnot e' hp
  · intro p hp
    rw [setThread_hist, hhist] at hp
    rw [setThread_threads, List.length_set, hthr]
    rcases List.mem_cons.1 hp with rfl | hp
    · exact hi
    · exact hw.hist_lt p hp
  · intro d hd; rw [setThread_pulls, hpulls] at hd; exact lt_of_lt_of_le (hw.pulls_lt d hd) hlen
  · intro d hd; rw [setThread_cleaner, hcl] at hd; exact lt_of_lt_of_le (hw.cleaner_lt d hd) hlen
  · intro d hd; rw [setThread_extRefs, hext] at hd; exact lt_of_lt_of_le (hw.ext_lt d hd) hlen
  · intro d rec hrec
    rw [setThread_threads, hthr]
    by_cases hd : d < w.dbs.length
    · obtain ⟨rest, ht⟩ := hdbs
      have h2 : (w.dbs ++ rest)[d]? = w.dbs[d]? := List.getElem?_append_left hd
      have hold : w.dbs[d]? = some rec := by rw [← h2, ht]; exact hrec
      obtain ⟨t', out, ht', htd, htc⟩ := hw.creator d rec hold
      exact ⟨t', out, by rw [List.getElem?_set_ne (Ne.symm (hw.creator_ne hth hpc hold))]; exact ht',
        htd, htc⟩
    · obtain ⟨hci, hdb, out, hc⟩ := hnew d rec hrec (not_lt.1 hd)
      exact ⟨th', out, by rw [hci, List.getElem?_set_self hi], hdb, hc⟩

/-- **A statement that stays inside the thread** and its logs: `db_map_`, the
history and the constructed ReplicatedDBs stay, the thread keeps its call and
local pointer and holds no more than before, and the pulls and the cleaner grow
only by constructed ReplicatedDBs, counted again only for the thread's own. -/
theorem inv_local (hw : Inv w) (hth : w.threads[i]? = some th) (hmap : w₁.dbMap = w.dbMap)
    (hdbs : w₁.dbs = w.dbs) (hhist : w₁.hist = w.hist) (hext : w₁.extRefs = w.extRefs)
    (hthr : w₁.threads = w.threads) (hpulls_lt : ∀ d ∈ w₁.pulls, d < w.dbs.length)
    (hcl_lt : ∀ d ∈ w₁.cleaner, d < w.dbs.length) (hwr : w.writes <+: w₁.writes)
    (hpulls : ∀ d (rec : ReplicatedDB), w.dbs[d]? = some rec → rec.creator ≠ i →
      w₁.pulls.count d = w.pulls.count d)
    (hcl : ∀ d (rec : ReplicatedDB), w.dbs[d]? = some rec → rec.creator ≠ i →
      w₁.cleaner.count d = w.cleaner.count d)
    (hcall : th'.call = th.call) (hdb : th'.db = th.db) (hh : ∀ d, th'.Holds d → th.Holds d)
    (hok : ThreadOK (w₁.setThread i th') i th') : Inv (w₁.setThread i th') := by
  have hf : Frame w (w₁.setThread i th') i :=
    ⟨⟨[], by rw [setThread_hist, hhist]; rfl, by simp⟩, by rw [setThread_dbs, hdbs], hwr, hpulls, hcl,
      fun d _ hnh hh' => hnh (held_of_setThread hth hmap hthr hext hh hh')⟩
  refine ⟨?_, ?_, ?_, ?_, ?_, ?_, ?_, ?_, creator_setThread hw hth hthr hdbs hcall hdb,
    threads_ok_setThread hw hth hthr hf hok⟩
  · intro n; rw [setThread_dbMap, hmap, setThread_hist, hhist]; exact hw.registry n
  · rw [setThread_hist, hhist]; exact hw.legal
  · rw [setThread_hist, hhist]; exact hw.once
  · rw [setThread_threads, List.length_set, hthr, setThread_hist, hhist]; exact hw.hist_lt
  · rw [setThread_dbMap, hmap, setThread_dbs, hdbs]; exact hw.map_lt
  · rw [setThread_pulls, setThread_dbs, hdbs]; exact hpulls_lt
  · rw [setThread_cleaner, setThread_dbs, hdbs]; exact hcl_lt
  · rw [setThread_extRefs, hext, setThread_dbs, hdbs]; exact hw.ext_lt

theorem not_mem_of_lt {l : List Nat} {n : Nat} (h : ∀ d ∈ l, d < n) : l.count n = 0 :=
  List.count_eq_zero_of_not_mem fun hm => lt_irrefl n (h n hm)

/-- A step that leaves the threads, the history and every log alone and makes
nothing live is framed for every thread. -/
theorem frame_env {w w' : World} (hhist : w'.hist = w.hist) (hdbs : w'.dbs = w.dbs)
    (hpulls : w'.pulls = w.pulls) (hcl : w'.cleaner = w.cleaner) (hwr : w'.writes = w.writes)
    (hheld : ∀ d, w'.Held d → w.Held d) : Frame w w' w.threads.length :=
  ⟨⟨[], by rw [hhist]; rfl, by simp⟩, by rw [hdbs], by rw [hwr], fun _ _ _ _ => by rw [hpulls],
    fun _ _ _ _ => by rw [hcl], fun d _ hnh h => hnh (hheld d h)⟩

section Statements

variable {w w' : World} {i : Nat} {db : Option Nat} {out : Option (Option Nat)}
  {o : WriteOutcome} (hw : Inv w)
include hw

/-- `db_map_.add` takes `new_db` in. -/
theorem inv_addDB_published {n : String} {r : ReplicaRole} {c : Option (Option Nat)}
    (hth : w.threads[i]? = some ⟨.addDB n r c, .start, db, out⟩) (hn : w.dbMap n = none)
    (h : w.exec i ⟨.addDB n r c, .start, db, out⟩ o = some w') : Inv w' := by
  simp only [World.exec, DbMap.add, hn, Option.some.injEq] at h
  subst h
  obtain ⟨-, hout, -⟩ := (hw.threads_ok i _ hth).start rfl
  dsimp only [Call.out] at hout
  subst hout
  refine inv_effect hw hth rfl (by simp [Agrees, ← hw.registry, hn]) rfl
    (fun n' => by dsimp only; rw [registered_add_true, Function.update_apply, hw.registry]) rfl rfl rfl rfl rfl
    ⟨_, rfl⟩ ?_ ?_ ?_ ?_ ?_
  · intro n' d' h'
    dsimp only at h' ⊢
    rw [Function.update_apply] at h'
    split_ifs at h' with hn'
    · exact .inr (Option.some.inj h')
    · exact .inl h'
  · intro n' d' h'
    dsimp only at h' ⊢
    rw [Function.update_apply] at h'
    simp only [List.length_append, List.length_singleton]
    split_ifs at h' with hn'
    · rw [← Option.some.inj h']; omega
    · exact Nat.lt_succ_of_lt (hw.map_lt n' d' h')
  · intro d' rec hrec hle
    obtain ⟨rfl, rfl⟩ := eq_of_concat_getElem? hrec hle
    exact ⟨rfl, rfl, _, rfl⟩
  · rintro d' ⟨-, hdb⟩
    exact .inr (Option.some.inj hdb)
  · refine ⟨w.dbs.length, rfl, List.getElem?_concat_length _ _, List.mem_cons_self _ _, ?_,
      not_mem_of_lt hw.pulls_lt, not_mem_of_lt hw.cleaner_lt⟩
    rfl

/-- `db_map_.add` finds the name taken: `DB_PRE_EXIST`. -/
theorem inv_addDB_pre_exist {n : String} {r : ReplicaRole} {c : Option (Option Nat)} {d₀ : Nat}
    (hth : w.threads[i]? = some ⟨.addDB n r c, .start, db, out⟩) (hn : w.dbMap n = some d₀)
    (h : w.exec i ⟨.addDB n r c, .start, db, out⟩ o = some w') : Inv w' := by
  simp only [World.exec, DbMap.add, hn, Option.some.injEq] at h
  subst h
  obtain ⟨-, hout, -⟩ := (hw.threads_ok i _ hth).start rfl
  dsimp only [Call.out] at hout
  subst hout
  refine inv_effect hw hth rfl (by simp [Agrees, ← hw.registry, hn]) rfl
    (fun n' => by dsimp only; rw [registered_add_false, hw.registry]) rfl rfl rfl rfl rfl
    ⟨_, rfl⟩ (fun n' d' h' => .inl h') ?_ ?_ (fun d' h' => by simp [Thread.Holds] at h') ?_
  · intro n' d' h'
    simp only [List.length_append, List.length_singleton]
    exact Nat.lt_succ_of_lt (hw.map_lt n' d' h')
  · intro d' rec hrec hle
    obtain ⟨rfl, rfl⟩ := eq_of_concat_getElem? hrec hle
    exact ⟨rfl, rfl, _, rfl⟩
  · refine .inr ⟨rfl, w.dbs.length, rfl, List.getElem?_concat_length _ _, List.mem_cons_self _ _, ?_,
      not_mem_of_lt hw.pulls_lt, not_mem_of_lt hw.cleaner_lt⟩
    rfl

/-- `db_map_.remove` finds the name: the thread now holds the entry. -/
theorem inv_removeDB_removed {n : String} {d : Nat}
    (hth : w.threads[i]? = some ⟨.removeDB n, .start, db, out⟩) (hn : w.dbMap n = some d)
    (h : w.exec i ⟨.removeDB n, .start, db, out⟩ o = some w') : Inv w' := by
  simp only [World.exec, DbMap.remove, hn, Option.map_some', Option.some.injEq] at h
  subst h
  refine inv_effect hw hth rfl (by simp [Agrees, ← hw.registry, hn]) rfl
    (fun n' => by
      dsimp only; rw [registered_remove_some, Function.update_apply, hw.registry])
    rfl rfl rfl rfl rfl ⟨[], List.append_nil _⟩ ?_ ?_ ?_ ?_ ?_
  · intro n' d' h'
    dsimp only at h' ⊢
    rw [Function.update_apply] at h'
    split_ifs at h'
    exact .inl h'
  · intro n' d' h'
    dsimp only at h' ⊢
    rw [Function.update_apply] at h'
    split_ifs at h'
    exact hw.map_lt n' d' h'
  · intro d' rec hrec hle
    exact absurd (List.getElem?_eq_some_iff.1 hrec).1 (not_lt.2 hle)
  · rintro d' ⟨-, hdb⟩
    exact .inl ⟨n, hn.trans hdb⟩
  · exact ⟨d, rfl, hw.map_lt n d hn, List.mem_cons_self _ _, by simp⟩

/-- `db_map_.remove` finds nothing: `DB_NOT_FOUND`. -/
theorem inv_removeDB_not_found {n : String}
    (hth : w.threads[i]? = some ⟨.removeDB n, .start, db, out⟩) (hn : w.dbMap n = none)
    (h : w.exec i ⟨.removeDB n, .start, db, out⟩ o = some w') : Inv w' := by
  simp only [World.exec, DbMap.remove, hn, Option.map_none', Option.some.injEq] at h
  subst h
  have hst := (hw.threads_ok i _ hth).start rfl
  exact inv_effect hw hth rfl (by simp [Agrees, ← hw.registry, hn]) rfl
    (fun n' => by dsimp only; rw [registered_remove_none, hw.registry]) rfl rfl rfl rfl rfl
    ⟨[], List.append_nil _⟩ (fun n' d' h' => .inl h') hw.map_lt
    (fun d' rec hrec hle => absurd (List.getElem?_eq_some_iff.1 hrec).1 (not_lt.2 hle))
    (fun d' h' => by simp [Thread.Holds] at h') (.inr ⟨rfl, hst.1, List.mem_cons_self _ _⟩)

/-- `db_map_.get` finds the name: the thread now holds the entry. -/
theorem inv_write_found {n : String} {d : Nat}
    (hth : w.threads[i]? = some ⟨.write n, .start, db, out⟩) (hn : w.dbMap n = some d)
    (h : w.exec i ⟨.write n, .start, db, out⟩ o = some w') : Inv w' := by
  simp only [World.exec, DbMap.get, hn, Option.some.injEq] at h
  subst h
  exact inv_effect hw hth rfl (by simp [Agrees, ← hw.registry, hn]) rfl
    (fun n' => by dsimp only; rw [registered_get, hw.registry]) rfl rfl rfl rfl rfl
    ⟨[], List.append_nil _⟩ (fun n' d' h' => .inl h') hw.map_lt
    (fun d' rec hrec hle => absurd (List.getElem?_eq_some_iff.1 hrec).1 (not_lt.2 hle))
    (fun d' ⟨_, hdb⟩ => .inl ⟨n, hn.trans hdb⟩)
    ⟨d, rfl, hw.map_lt n d hn, List.mem_cons_self _ _⟩

/-- `db_map_.get` finds nothing: `DB_NOT_FOUND`. -/
theorem inv_write_not_found {n : String}
    (hth : w.threads[i]? = some ⟨.write n, .start, db, out⟩) (hn : w.dbMap n = none)
    (h : w.exec i ⟨.write n, .start, db, out⟩ o = some w') : Inv w' := by
  simp only [World.exec, DbMap.get, hn, Option.some.injEq] at h
  subst h
  have hst := (hw.threads_ok i _ hth).start rfl
  exact inv_effect hw hth rfl (by simp [Agrees, ← hw.registry, hn]) rfl
    (fun n' => by dsimp only; rw [registered_get, hw.registry]) rfl rfl rfl rfl rfl
    ⟨[], List.append_nil _⟩ (fun n' d' h' => .inl h') hw.map_lt
    (fun d' rec hrec hle => absurd (List.getElem?_eq_some_iff.1 hrec).1 (not_lt.2 hle))
    (fun d' h' => by simp [Thread.Holds] at h') (.inl ⟨rfl, hst.1, List.mem_cons_self _ _⟩)

/-- `pullFromUpstream`, for a follower or an observer. -/
theorem inv_addDB_pulled {n : String} {r : ReplicaRole} {c : Option (Option Nat)}
    (hth : w.threads[i]? = some ⟨.addDB n r c, .holding, db, out⟩)
    (h : w.exec i ⟨.addDB n r c, .holding, db, out⟩ o = some w') : Inv w' := by
  obtain ⟨d, hdb, hrec, hh, hout, hp, hcl⟩ := hw.threads_ok i _ hth
  dsimp only at hdb
  subst hdb
  simp only [World.exec, Option.map_some', Option.some.injEq] at h
  subst h
  have hlt := (List.getElem?_eq_some_iff.1 hrec).1
  refine inv_local hw hth rfl rfl rfl rfl rfl ?_ hw.cleaner_lt (List.prefix_refl _) ?_
    (fun _ _ _ _ => rfl) rfl rfl (fun _ h => ⟨.inl rfl, h.2⟩) ⟨d, rfl, hrec, hh, hout, ?_, hcl⟩
  · intro d' hd'
    dsimp only at hd'
    split_ifs at hd'
    · rcases List.mem_append.1 hd' with hd' | hd'
      · exact hw.pulls_lt d' hd'
      · rw [List.mem_singleton.1 hd']; exact hlt
    · exact hw.pulls_lt d' hd'
  · intro d' rec hrec' hc
    have hne : d ≠ d' := by rintro rfl; exact hc (Option.some.inj (hrec.symm.trans hrec') ▸ rfl)
    dsimp only
    split_ifs <;> simp [List.count_singleton, hne]
  · dsimp only
    unfold pullCount
    split_ifs <;> simp [hp]

/-- `cleaner_.addDB(new_db)`, then `OK`. -/
theorem inv_addDB_cleaned {n : String} {r : ReplicaRole} {c : Option (Option Nat)}
    (hth : w.threads[i]? = some ⟨.addDB n r c, .pulled, db, out⟩)
    (h : w.exec i ⟨.addDB n r c, .pulled, db, out⟩ o = some w') : Inv w' := by
  obtain ⟨d, hdb, hrec, hh, hout, hp, hcl⟩ := hw.threads_ok i _ hth
  dsimp only at hdb
  subst hdb
  simp only [World.exec, Option.map_some', Option.some.injEq] at h
  subst h
  have hlt := (List.getElem?_eq_some_iff.1 hrec).1
  refine inv_local hw hth rfl rfl rfl rfl rfl hw.pulls_lt ?_ (List.prefix_refl _)
    (fun _ _ _ _ => rfl) ?_ rfl rfl (fun _ h => by simp [Thread.Holds] at h)
    (.inl ⟨rfl, d, rfl, hrec, hh, hout, hp, by simp [hcl]⟩)
  · intro d' hd'
    rcases List.mem_append.1 hd' with hd' | hd'
    · exact hw.cleaner_lt d' hd'
    · rw [List.mem_singleton.1 hd']; exact hlt
  · intro d' rec hrec' hc
    have hne : d ≠ d' := by rintro rfl; exact hc (Option.some.inj (hrec.symm.trans hrec') ▸ rfl)
    simp [List.count_singleton, hne]

/-- `db.reset()`: the thread keeps only `weak_db`. -/
theorem inv_removeDB_reset {n : String}
    (hth : w.threads[i]? = some ⟨.removeDB n, .holding, db, out⟩)
    (h : w.exec i ⟨.removeDB n, .holding, db, out⟩ o = some w') : Inv w' := by
  obtain ⟨d, hdb, hlt, hh, -⟩ := hw.threads_ok i _ hth
  simp only [World.exec, Option.some.injEq] at h
  subst h
  exact inv_local hw hth rfl rfl rfl rfl rfl hw.pulls_lt hw.cleaner_lt (List.prefix_refl _)
    (fun _ _ _ _ => rfl) (fun _ _ _ _ => rfl) rfl rfl (fun _ h => by simp [Thread.Holds] at h)
    ⟨d, hdb, hlt, hh, by simp⟩

/-- `ReplicatedDB::Write` answers, and `write` returns its translation. -/
theorem inv_write_done {n : String}
    (hth : w.threads[i]? = some ⟨.write n, .holding, db, out⟩)
    (h : w.exec i ⟨.write n, .holding, db, out⟩ o = some w') : Inv w' := by
  obtain ⟨d, hdb, hlt, hh⟩ := hw.threads_ok i _ hth
  dsimp only at hdb
  subst hdb
  simp only [World.exec, Option.map_some', Option.some.injEq] at h
  subst h
  exact inv_local hw hth rfl rfl rfl rfl rfl hw.pulls_lt hw.cleaner_lt (List.prefix_append _ _)
    (fun _ _ _ _ => rfl) (fun _ _ _ _ => rfl) rfl rfl (fun _ h => by simp [Thread.Holds] at h)
    (.inr ⟨d, o, ⟨rfl, hlt, hh⟩, List.mem_append_right _ (List.mem_singleton_self _), rfl⟩)

/-- `weak_db` has expired: `removeDB` returns `OK`, and nothing holds the
ReplicatedDB. -/
theorem inv_expired {th : Thread} {n : String} {d : Nat} (hth : w.threads[i]? = some th)
    (hc : th.call = .removeDB n) (hpc : th.pc = .waiting) (hdb : th.db = some d)
    (hnh : ¬ w.Held d) : Inv (w.setThread i { th with pc := .returned .ok }) := by
  obtain ⟨c, pc, db, out⟩ := th
  dsimp only at hc hpc hdb
  subst hc hpc hdb
  have hnone : ∀ d', ({ call := .removeDB n, pc := .returned .ok, db := some d, out := out } :
      Thread).Holds d' → False := fun _ h => by simp [Thread.Holds] at h
  obtain ⟨d', hdb', hlt, hh, -⟩ := hw.threads_ok i _ hth
  dsimp only at hdb'
  obtain rfl := Option.some.inj hdb'
  exact inv_local hw hth rfl rfl rfl rfl rfl hw.pulls_lt hw.cleaner_lt (List.prefix_refl _)
    (fun _ _ _ _ => rfl) (fun _ _ _ _ => rfl) rfl rfl (fun d' h => (hnone d' h).elim)
    (.inl ⟨rfl, d, rfl, hlt, hh, fun _ hh' =>
      hnh (held_of_setThread hth rfl rfl rfl (fun d' h => (hnone d' h).elim) hh')⟩)

/-- **One statement of any thread keeps the invariant.** -/
theorem inv_exec {th : Thread} (hth : w.threads[i]? = some th) (h : w.exec i th o = some w') :
    Inv w' := by
  obtain ⟨c, pc, db, out⟩ := th
  cases c with
  | addDB n r c =>
    cases pc with
    | start =>
      cases hn : w.dbMap n with
      | none => exact inv_addDB_published hw hth hn h
      | some d₀ => exact inv_addDB_pre_exist hw hth hn h
    | holding => exact inv_addDB_pulled hw hth h
    | pulled => exact inv_addDB_cleaned hw hth h
    | _ => simp [World.exec] at h
  | removeDB n =>
    cases pc with
    | start =>
      cases hn : w.dbMap n with
      | none => exact inv_removeDB_not_found hw hth hn h
      | some d => exact inv_removeDB_removed hw hth hn h
    | holding => exact inv_removeDB_reset hw hth h
    | _ => simp [World.exec] at h
  | write n =>
    cases pc with
    | start =>
      cases hn : w.dbMap n with
      | none => exact inv_write_not_found hw hth hn h
      | some d => exact inv_write_found hw hth hn h
    | holding => exact inv_write_done hw hth h
    | _ => simp [World.exec] at h

/-- A holder outside the calls takes or drops a reference. -/
theorem inv_extRefs {ext : Nat → Nat} (hlt : ∀ d, 0 < ext d → d < w.dbs.length)
    (hheld : ∀ d, 0 < ext d → w.Held d) : Inv { w with extRefs := ext } := by
  have hf : Frame w { w with extRefs := ext } w.threads.length :=
    frame_env rfl rfl rfl rfl rfl fun d h => by
      rcases h with hm | ht | he
      · exact .inl hm
      · exact .inr (.inl ht)
      · exact hheld d he
  exact ⟨hw.registry, hw.legal, hw.once, hw.hist_lt, hw.map_lt, hw.pulls_lt, hw.cleaner_lt, hlt,
    hw.creator, fun j t ht =>
      (hw.threads_ok j t ht).frame hf (List.getElem?_eq_some_iff.1 ht).1.ne⟩

/-- A client starts a call on a new thread. -/
theorem inv_call (c : Call) :
    Inv { w with threads := w.threads ++ [⟨c, .start, none, c.out⟩] } := by
  have hf : Frame w { w with threads := w.threads ++ [⟨c, .start, none, c.out⟩] }
      w.threads.length :=
    frame_env rfl rfl rfl rfl rfl fun d h => by
      rcases h with hm | ⟨t, ht, hh⟩ | he
      · exact .inl hm
      · rcases List.mem_append.1 ht with ht | ht
        · exact .inr (.inl ⟨t, ht, hh⟩)
        · rw [List.mem_singleton.1 ht] at hh; simp [Thread.Holds] at hh
      · exact .inr (.inr he)
  refine ⟨hw.registry, hw.legal, hw.once, ?_, hw.map_lt, hw.pulls_lt, hw.cleaner_lt, hw.ext_lt, ?_, ?_⟩
  · intro p hp
    exact lt_of_lt_of_le (hw.hist_lt p hp) (by simp)
  · intro d rec hrec
    obtain ⟨t, out, ht, htd, htc⟩ := hw.creator d rec hrec
    exact ⟨t, out, by rw [List.getElem?_append_left (List.getElem?_eq_some_iff.1 ht).1]; exact ht,
      htd, htc⟩
  · intro j t ht
    by_cases hj : j < w.threads.length
    · rw [List.getElem?_append_left hj] at ht
      exact (hw.threads_ok j t ht).frame hf hj.ne
    · have hj' : j = w.threads.length := by
        have := (List.getElem?_eq_some_iff.1 ht).1
        simp only [List.length_append, List.length_singleton] at this
        omega
      subst hj'
      rw [List.getElem?_concat_length, Option.some.injEq] at ht
      subst ht
      cases c <;> exact ⟨rfl, rfl, fun e he => lt_irrefl _ (hw.hist_lt _ he)⟩

/-- **Every step keeps the invariant.** -/
theorem inv_step (h : Step w w') : Inv w' := by
  cases h with
  | call c => exact inv_call hw c
  | exec i th o w' hth h => exact inv_exec hw hth h
  | expired i th n d hth hc hpc hdb hnh => exact inv_expired hw hth hc hpc hdb hnh
  | acquire d hd =>
    refine inv_extRefs hw (fun d' h' => ?_) (fun d' h' => ?_) <;> rw [Function.update_apply] at h' <;>
      split_ifs at h' with hd'
    · exact hd' ▸ hw.held_lt hd
    · exact hw.ext_lt d' h'
    · exact hd' ▸ hd
    · exact .inr (.inr h')
  | release d hd =>
    refine inv_extRefs hw (fun d' h' => ?_) (fun d' h' => ?_) <;> rw [Function.update_apply] at h' <;>
      split_ifs at h' with hd'
    · exact hw.ext_lt d' (hd' ▸ hd)
    · exact hw.ext_lt d' h'
    · exact .inr (.inr (hd' ▸ hd))
    · exact .inr (.inr h')

end Statements

end Steps

theorem inv_init : Inv World.init :=
  ⟨fun _ => rfl, trivial, List.nodup_nil, fun _ h => absurd h (List.not_mem_nil _),
    fun _ _ h => absurd h (by simp [World.init]), fun _ h => absurd h (List.not_mem_nil _),
    fun _ h => absurd h (List.not_mem_nil _), fun _ h => absurd h (lt_irrefl 0),
    fun _ _ h => absurd h (by simp [World.init]), fun _ _ h => absurd h (by simp [World.init])⟩

/-- **The invariant holds in every state an interleaving of calls reaches.** -/
theorem inv_reachable {w : World} (h : Reachable w) : Inv w := by
  induction h with
  | refl => exact inv_init
  | tail _ hs ih => exact inv_step ih hs

end Replicator

end Rocksplicator
