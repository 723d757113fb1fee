import Mathlib

/-!
# The shard registry as a sequential object

`db_map_` is the shard registry: `add` inserts a name if it is absent, `remove`
unpublishes a name and hands back its entry, `get` looks a name up. Each call of
the replicator takes effect at one of these operations, and the history of those
effects, newest first and tagged with the calling thread, is a run of the
registry. `registered h` is what the registry holds after the effects `h`: for
each name, the ReplicatedDB of its last successful `add`, unless a successful
`remove` came after it. The names it holds are the set `S` of names whose last
successful call was `addDB`.

* `Legal`: every effect of a history is the registry's answer to the effects
  before it.
* `Legal.split`: an effect of a legal history sits at a definite point of it,
  and agrees with what the registry held there.
* `registered_mem`, `registered_after_remove`: a registered entry came in by a
  successful `add`, after any successful `remove` of its name.
-/

namespace Rocksplicator

namespace Replicator

/-- One call's effect on the registry: an `add` with its new ReplicatedDB and
whether it went in, or a `remove` or `get` with the entry it found. -/
inductive Effect
  | add (name : String) (db : Nat) (ok : Bool)
  | remove (name : String) (db : Option Nat)
  | get (name : String) (db : Option Nat)
deriving Repr, DecidableEq

/-- The ReplicatedDB registered under each name after the effects `h`, newest
first. -/
def registered : List (Nat × Effect) → String → Option Nat
  | [], _ => none
  | (_, .add m d true) :: h, n => if n = m then some d else registered h n
  | (_, .remove m (some _)) :: h, n => if n = m then none else registered h n
  | _ :: h, n => registered h n

section Registered

variable (i : Nat) (h : List (Nat × Effect)) (m n : String) (d : Nat)

@[simp] theorem registered_add_true :
    registered ((i, .add m d true) :: h) n = if n = m then some d else registered h n := rfl

@[simp] theorem registered_add_false : registered ((i, .add m d false) :: h) n = registered h n :=
  rfl

@[simp] theorem registered_remove_some :
    registered ((i, .remove m (some d)) :: h) n = if n = m then none else registered h n := rfl

@[simp] theorem registered_remove_none : registered ((i, .remove m none) :: h) n = registered h n :=
  rfl

@[simp] theorem registered_get (db : Option Nat) :
    registered ((i, .get m db) :: h) n = registered h n := by
  cases db <;> rfl

end Registered

/-- The registry's answer to an effect: an `add` goes in iff the name is free,
`remove` and `get` find the registered entry. -/
def Agrees (reg : String → Option Nat) : Effect → Prop
  | .add n _ ok => ok = (reg n).isNone
  | .remove n db => db = reg n
  | .get n db => db = reg n

/-- A history in which each effect is the registry's answer to those before it. -/
def Legal : List (Nat × Effect) → Prop
  | [] => True
  | (_, e) :: h => Agrees (registered h) e ∧ Legal h

@[simp] theorem legal_cons {i : Nat} {e : Effect} {h : List (Nat × Effect)} :
    Legal ((i, e) :: h) ↔ Agrees (registered h) e ∧ Legal h := Iff.rfl

/-- An effect of a legal history sits at a definite point of it and agrees with
what the registry held there. -/
theorem Legal.split : ∀ {h : List (Nat × Effect)}, Legal h → ∀ {p : Nat × Effect}, p ∈ h →
    ∃ h₁ h₂, h = h₂ ++ p :: h₁ ∧ Agrees (registered h₁) p.2
  | [], _, _, hp => absurd hp (List.not_mem_nil _)
  | (i, e) :: h, hl, p, hp => by
    rcases List.mem_cons.1 hp with rfl | hp
    · exact ⟨h, [], rfl, hl.1⟩
    · obtain ⟨h₁, h₂, rfl, ha⟩ := Legal.split hl.2 hp
      exact ⟨h₁, (i, e) :: h₂, rfl, ha⟩

/-- A name registered after one more effect was registered by that effect, or
already before it. -/
theorem registered_cons_some {k : Nat} {e : Effect} {h : List (Nat × Effect)} {n : String}
    {d : Nat} (hr : registered ((k, e) :: h) n = some d) :
    e = .add n d true ∨ registered h n = some d := by
  cases e with
  | add m d' ok =>
    cases ok
    · exact .inr hr
    · rw [registered_add_true] at hr
      split_ifs at hr with hnm
      · exact .inl (by rw [hnm, Option.some.inj hr])
      · exact .inr hr
  | remove m db =>
    cases db with
    | none => exact .inr hr
    | some d' =>
      rw [registered_remove_some] at hr
      split_ifs at hr
      exact .inr hr
  | get m db => exact .inr ((registered_get _ _ _ _ _).symm.trans hr)

/-- Every registered entry came in by a successful `add` of the history. -/
theorem registered_mem {n : String} {d : Nat} :
    ∀ {h : List (Nat × Effect)}, registered h n = some d → ∃ k, (k, .add n d true) ∈ h
  | [], hr => absurd hr (by simp [registered])
  | (k, _) :: _, hr => by
    rcases registered_cons_some hr with rfl | hr
    · exact ⟨k, List.mem_cons_self _ _⟩
    · obtain ⟨k', hk⟩ := registered_mem hr
      exact ⟨k', List.mem_cons_of_mem _ hk⟩

/-- After a successful `remove` of `n`, an entry is registered under another name
from before, or came in by a later `add`. -/
theorem registered_after_remove {i : Nat} {m : String} {d₀ : Nat} {h₁ : List (Nat × Effect)}
    {n : String} {d : Nat} : ∀ {h₂ : List (Nat × Effect)},
    registered (h₂ ++ (i, .remove m (some d₀)) :: h₁) n = some d →
      (n ≠ m ∧ registered h₁ n = some d) ∨ ∃ k, (k, .add n d true) ∈ h₂
  | [], hr => by
    rw [List.nil_append, registered_remove_some] at hr
    split_ifs at hr with hnm
    exact .inl ⟨hnm, hr⟩
  | (k, _) :: _, hr => by
    rcases registered_cons_some hr with rfl | hr
    · exact .inr ⟨k, List.mem_cons_self _ _⟩
    · rcases registered_after_remove hr with h | ⟨k', hk⟩
      · exact .inl h
      · exact .inr ⟨k', List.mem_cons_of_mem _ hk⟩

end Replicator

end Rocksplicator
