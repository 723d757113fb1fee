import Mathlib

/-!
# `std::string` and `boost::split` as `S3Util` uses them

A `std::string` is a list of `char`s. `find` answers `npos` when the pattern is
absent, `substr` throws `std::out_of_range` past the end, and `int` and `size_t`
conversions wrap.

* `find_eq_zero_iff`: `s.find(pat) == 0` tests that `s` starts with `pat`.
* `find_slash_of_free`, `find_slash_append`: where `find("/")` lands.
* `lastPart_append`: the last part of a `boost::split` is what follows the
  last separator.
* `lastPart_free`: the last part holds no separator.
-/

namespace Rocksplicator

/-- `std::string::npos`, the largest `size_t`. -/
def npos : Nat := 2 ^ 64 - 1

/-- The first position where `pat` occurs in `s`. -/
def firstIndex (s pat : List Char) : Option Nat :=
  match s with
  | [] => if pat = [] then some 0 else none
  | c :: t => if pat.isPrefixOf (c :: t) then some 0 else (firstIndex t pat).map (· + 1)

/-- `s.find(pat)`: the first position where `pat` occurs in `s`, or `npos`. -/
def find (s pat : List Char) : Nat := (firstIndex s pat).getD npos

/-- `s.substr(pos, count)`: at most `count` characters from `pos`; throws
`std::out_of_range` when `pos > s.size()`. -/
def substr (s : List Char) (pos count : Nat) : Except String (List Char) :=
  if s.length < pos then .error "std::out_of_range" else .ok ((s.drop pos).take count)

/-- Conversion to a 32-bit `int`, wrapping modulo `2^32`. -/
def toInt32 (x : Int) : Int :=
  if x % 2 ^ 32 < 2 ^ 31 then x % 2 ^ 32 else x % 2 ^ 32 - 2 ^ 32

/-- Conversion of an `int` to `size_t`: reduction modulo `2^64`. -/
def toSize (x : Int) : Nat := (x % 2 ^ 64).toNat

/-- `boost::split(parts, s, boost::is_any_of(delims))`: cut at every character
of `delims`, keeping empty parts. -/
def splitAnyOf (s delims : List Char) : List (List Char) :=
  s.splitOnP (· ∈ delims)

/-- `parts[parts.size() - 1]` after `boost::split`. -/
def lastPart (s delims : List Char) : List Char :=
  (splitAnyOf s delims).getLastD []

theorem ok_bind {ε α β : Type} (a : α) (f : α → Except ε β) : (Except.ok a >>= f) = f a := rfl

theorem find_eq_zero_iff (s pat : List Char) : find s pat = 0 ↔ pat <+: s := by
  cases s with
  | nil => cases pat <;> simp [find, firstIndex, npos]
  | cons c t =>
    rw [← List.isPrefixOf_iff_prefix]
    cases h : firstIndex t pat <;> by_cases hp : pat.isPrefixOf (c :: t) <;>
      simp [find, firstIndex, h, hp, npos]

theorem substr_of_le {s : List Char} {pos : Nat} (h : pos ≤ s.length) (count : Nat) :
    substr s pos count = .ok ((s.drop pos).take count) := by
  simp [substr, show ¬ s.length < pos by omega]

theorem substr_of_lt {s : List Char} {pos : Nat} (h : s.length < pos) (count : Nat) :
    substr s pos count = .error "std::out_of_range" := by
  simp [substr, h]

theorem firstIndex_slash_of_free : ∀ {r : List Char}, '/' ∉ r → firstIndex r ['/'] = none
  | [], _ => by simp [firstIndex]
  | c :: t, h => by
    rw [List.mem_cons, not_or] at h
    simp [firstIndex, firstIndex_slash_of_free h.2, h.1]

/-- With no `/` in `r`, `find("/")` is `npos`. -/
theorem find_slash_of_free {r : List Char} (h : '/' ∉ r) : find r ['/'] = npos := by
  simp [find, firstIndex_slash_of_free h]

/-- `find("/")` lands on the first `/`. -/
theorem firstIndex_slash_append (p : List Char) :
    ∀ {b : List Char}, '/' ∉ b → firstIndex (b ++ '/' :: p) ['/'] = some b.length
  | [], _ => by simp [firstIndex]
  | c :: t, h => by
    rw [List.mem_cons, not_or] at h
    simp [firstIndex, firstIndex_slash_append p h.2, h.1]

theorem find_slash_append (p : List Char) {b : List Char} (h : '/' ∉ b) :
    find (b ++ '/' :: p) ['/'] = b.length := by
  simp [find, firstIndex_slash_append p h]

theorem toInt32_of_lt {x : Int} (h0 : 0 ≤ x) (h : x < 2 ^ 31) : toInt32 x = x := by
  unfold toInt32; split_ifs <;> omega

theorem toSize_of_nonneg {x : Int} (h0 : 0 ≤ x) (h : x < 2 ^ 64) : toSize x = x.toNat := by
  unfold toSize; omega

/-- Splitting at a separator splits each side of it. -/
theorem splitOnP_append_cons {α : Type} {p : α → Bool} {sep : α} (hsep : p sep) (ys : List α) :
    ∀ xs : List α, (xs ++ sep :: ys).splitOnP p = xs.splitOnP p ++ ys.splitOnP p
  | [] => by simp [hsep]
  | x :: xs => by
    obtain ⟨h, t, ht⟩ := List.exists_cons_of_ne_nil (List.splitOnP_ne_nil p xs)
    by_cases hx : p x <;> simp [hx, splitOnP_append_cons hsep ys xs, ht]

theorem lastPart_of_free {s delims : List Char} (h : ∀ c ∈ s, c ∉ delims) :
    lastPart s delims = s := by
  simp [lastPart, splitAnyOf, List.splitOnP_eq_single (fun c => decide (c ∈ delims)) s (by simpa using h)]

/-- The last part of a `boost::split` is what follows the last separator. -/
theorem lastPart_append {delims t : List Char} (s : List Char) {sep : Char} (hsep : sep ∈ delims)
    (ht : ∀ c ∈ t, c ∉ delims) : lastPart (s ++ sep :: t) delims = t := by
  simp [lastPart, splitAnyOf,
    splitOnP_append_cons (p := fun c => decide (c ∈ delims)) (decide_eq_true hsep),
    List.splitOnP_eq_single (fun c => decide (c ∈ delims)) t (by simpa using ht)]

/-- No part of a split holds a separator. -/
theorem splitOnP_free {α : Type} (p : α → Bool) :
    ∀ (xs : List α), ∀ part ∈ xs.splitOnP p, ∀ c ∈ part, p c = false
  | [] => by simp
  | x :: xs => by
    have ih := splitOnP_free p xs
    obtain ⟨h, t, ht⟩ := List.exists_cons_of_ne_nil (List.splitOnP_ne_nil p xs)
    rw [ht] at ih
    by_cases hx : p x <;> simpa [List.splitOnP_cons, hx, ht, List.modifyHead] using ih

/-- The last part of a `boost::split` holds no separator. -/
theorem lastPart_free (s delims : List Char) : ∀ c ∈ lastPart s delims, c ∉ delims := by
  intro c hc
  rcases List.mem_cons.1 (List.getLastD_mem_cons (splitAnyOf s delims) []) with h | h
  · rw [lastPart, h] at hc; exact absurd hc (List.not_mem_nil c)
  · simpa using splitOnP_free _ s _ h c hc

end Rocksplicator
